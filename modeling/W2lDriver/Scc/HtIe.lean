/-
**The beacon of an AP that follows a station to its channel.**

* `changeBeaconHtIe` — `aml_scc_change_beacon_ht_ie`, up to the frame it hands to the firmware.
* `rewritten`, `rewriteIes_bytes` — **what it does to the elements of a beacon**.
* `getElem?_rewritten` — the same, by position: an element is changed if it is found.
* `Retargeted` — the beacon that is stored announces the target channel; `Meets` — **when an element that is found
  gets the target's fields**.
-/

import W2lDriver.Scc.Beacon
import W2lDriver.Scc.Chandef

namespace W2l.Scc

open Lib
open Option (bind_eq_bind bind_some map_map some.inj)
open Element (getD_setData getD_setData_self length_setData setData_getD)

/-! ### The code -/

section Code

variable (t : Chandef) (buf : List Byte) (ie : ℕ)

/-- The low bits of `ht_param`. -/
def Chandef.htParam : Byte :=
  if ChanWidth.w40.number ≤ t.width.number then
    4 ||| if t.centerFreq1 < t.centerFreq then 3 else if t.centerFreq < t.centerFreq1 then 1 else 0
  else 0

/-- What a segment becomes: it stays where the definition has no frequency. -/
def Chandef.chosen (old : Byte) (freq : BitVec 32) : Byte := if freq = 0 then old else t.segment freq

/-- `ds_ie` is found. -/
def setDs : List Byte :=
  if buf.getD (ie + 1) 0 = 1 then buf.set (ie + 2) t.chanNo else buf

/-- `ht_ie` is found. -/
def setHt : List Byte :=
  if 22 ≤ (buf.getD (ie + 1) 0).toNat then
    (buf.set (ie + 2) t.chanNo).set (ie + 3) ((buf.set (ie + 2) t.chanNo).getD (ie + 3) 0 &&& 0xF8 ||| t.htParam)
  else buf

/-- `vht_ie` is found. -/
def setVht : List Byte :=
  if 5 ≤ (buf.getD (ie + 1) 0).toNat then
    match t.width with
    | .w20 | .w40 => ((buf.set (ie + 2) 0).set (ie + 3) 0).set (ie + 4) 0
    | .w80 | .w160 | .w80P80 =>
      let buf := buf.set (ie + 2) 1
      let buf := buf.set (ie + 3) (t.chosen (buf.getD (ie + 3) 0) t.centerFreq1)
      buf.set (ie + 4) (t.chosen (buf.getD (ie + 4) 0) t.centerFreq2)
    | .w20NoHt | .w5 | .w10 => buf
  else buf

/-- `cfg80211_find_ie(id, var_pos, len)`. -/
def findVar (id : Byte) (len : ℕ) (buf : List Byte) : Option ℕ := findElement id ((buf.drop varOffset).take len)

/-- The three elements, each searched in `len` bytes. -/
def rewriteIes (len : Byte) : List Byte :=
  let buf := editAt (setDs t) varOffset buf (findVar eidDsParams len.toNat buf)
  let buf := editAt (setHt t) varOffset buf (findVar eidHtOperation len.toNat buf)
  editAt (setVht t) varOffset buf (findVar eidVhtOperation len.toNat buf)

end Code

section Length

variable {t : Chandef} {buf : List Byte} {ie : ℕ}

theorem length_setDs : (setDs t buf ie).length = buf.length := by
  unfold setDs
  split
  · exact List.length_set
  · rfl

theorem length_setHt : (setHt t buf ie).length = buf.length := by
  unfold setHt
  split
  · rw [List.length_set, List.length_set]
  · rfl

theorem length_setVht : (setVht t buf ie).length = buf.length := by
  unfold setVht
  split
  · cases t.width <;> simp only [List.length_set]
  · rfl

theorem length_editAt {edit : List Byte → ℕ → List Byte} {front : ℕ} {off : Option ℕ}
    (same : ∀ ie, (edit buf ie).length = buf.length) : (editAt edit front buf off).length = buf.length := by
  cases off with
  | none => rfl
  | some off => exact same _

theorem length_rewriteIes (t : Chandef) (buf : List Byte) (len : Byte) :
    (rewriteIes t buf len).length = buf.length := by
  unfold rewriteIes
  rw [length_editAt fun _ => length_setVht, length_editAt fun _ => length_setHt, length_editAt fun _ => length_setDs]

end Length

/-- `scc_bcn_buf` after the rewrite. -/
def Frmbuf.rewrite (b : Frmbuf) (t : Chandef) (len : Byte) : Frmbuf :=
  ⟨rewriteIes t b.bytes len, (length_rewriteIes t b.bytes len).trans b.full⟩

/-- `aml_scc_change_beacon_ht_ie` for a beacon of `bcnLen` bytes; `memory` is what `kmalloc` returns. It ends with
the buffers and the frame for the firmware, if there is one, or leaves a buffer. -/
def changeBeaconHtIe (s : Bufs) (memory : Option Frmbuf) (bcnLen : ℕ) (t : Chandef) :
    Option (Bufs × Option (List Byte)) :=
  match s.sccBcnBuf <|> memory with
  | none => some (s, none)
  | some old => do
    let saved ← s.bcnSave.load bcnLen
    let buf ← old.store saved
    -- `u8 len`
    let buf := buf.rewrite t (BitVec.ofNat 8 bcnLen - BitVec.ofNat 8 varOffset)
    let frame ← buf.load bcnLen
    let bcnSave ← s.bcnSave.store frame
    return ({ bcnSave, sccBcnBuf := some buf }, some frame)

/-! ### Elements -/

/-- `setVht`, to an element. -/
def putVht (t : Chandef) (e : Element) : Element :=
  match t.width with
  | .w20 | .w40 => withVht (0, 0, 0) e
  | .w80 | .w160 | .w80P80 =>
    withVht (1, t.chosen (e.data.getD 1 0) t.centerFreq1, t.chosen (e.data.getD 2 0) t.centerFreq2) e
  | .w20NoHt | .w5 | .w10 => e

theorem keeps_putVht (t : Chandef) : Keeps (putVht t) where
  id := fun e => by
    unfold putVht
    cases t.width <;> simp only [withVht_id]
  size := fun e => by
    unfold putVht
    cases t.width <;> simp only [(keeps_withVht _).size]

section Edits

variable (t : Chandef)

theorem setDs_edits : Edits (setDs t) (withDs t.chanNo) := fun front e rest => by
  have one : BitVec.ofNat 8 e.data.length = 1 ↔ e.data.length = 1 := by
    rw [← BitVec.toNat_inj, toNat_length]
    rfl
  unfold setDs withDs
  rw [getD_length]
  by_cases single : e.data.length = 1
  · rw [if_pos (one.mpr single), if_pos single]
    exact set_data front e rest (by omega) _
  · rw [if_neg (mt one.mp single), if_neg single]

theorem setHt_edits : Edits (setHt t) (withHt t.chanNo t.htParam) := fun front e rest => by
  unfold setHt withHt
  rw [getD_length, toNat_length]
  by_cases whole : 22 ≤ e.data.length
  · rw [if_pos whole, if_pos whole]
    have first : (front ++ (e.bytes ++ rest)).set (front.length + 2) t.chanNo = _ :=
      set_data front e rest (i := 0) (by omega) _
    have inside : 1 < (e.setData 0 t.chanNo).data.length := by
      rw [length_setData]
      omega
    have param : (front ++ ((e.setData 0 t.chanNo).bytes ++ rest)).getD (front.length + 3) 0 = e.data.getD 1 0 := by
      exact (getD_data front _ rest inside).trans (getD_setData Nat.zero_ne_one _)
    rw [first, param]
    exact set_data front _ rest inside _
  · rw [if_neg whole, if_neg whole]

theorem setVht_edits : Edits (setVht t) (putVht t) := fun front e rest => by
  unfold setVht putVht withVht
  rw [getD_length, toNat_length]
  by_cases whole : 5 ≤ e.data.length
  swap
  · rw [if_neg whole]
    cases t.width <;> simp only [if_neg whole]
  have set (e' : Element) (same : e'.data.length = e.data.length) (i : ℕ) (low : i < 5) (v : Byte) :
      (front ++ (e'.bytes ++ rest)).set (front.length + (i + 2)) v = front ++ ((e'.setData i v).bytes ++ rest) :=
    set_data front e' rest (by omega) v
  have get (e' : Element) (same : e'.data.length = e.data.length) (i : ℕ) (low : i < 5) :
      (front ++ (e'.bytes ++ rest)).getD (front.length + (i + 2)) 0 = e'.data.getD i 0 :=
    getD_data front e' rest (by omega)
  have length (i : ℕ) (v : Byte) : (e.setData i v).data.length = e.data.length := e.length_setData i v
  have length' (i j : ℕ) (v w : Byte) : ((e.setData i v).setData j w).data.length = e.data.length :=
    (length_setData _ j w).trans (length i v)
  have narrow : (((front ++ (e.bytes ++ rest)).set (front.length + 2) 0).set (front.length + 3) 0).set
      (front.length + 4) 0 = front ++ ((((e.setData 0 0).setData 1 0).setData 2 0).bytes ++ rest) := by
    rw [set e rfl 0 (by decide), set _ (length 0 0) 1 (by decide), set _ (length' 0 1 0 0) 2 (by decide)]
  have wide (old old' : Byte → Byte) : let buf := (front ++ (e.bytes ++ rest)).set (front.length + 2) 1
      let buf := buf.set (front.length + 3) (old (buf.getD (front.length + 3) 0))
      buf.set (front.length + 4) (old' (buf.getD (front.length + 4) 0)) =
        front ++ ((((e.setData 0 1).setData 1 (old (e.data.getD 1 0))).setData 2 (old' (e.data.getD 2 0))).bytes ++
          rest) := by
    dsimp only
    rw [set e rfl 0 (by decide), get _ (length 0 1) 1 (by decide), getD_setData (by decide),
      set _ (length 0 1) 1 (by decide), get _ (length' 0 1 1 _) 2 (by decide), getD_setData (by decide),
      getD_setData (by decide), set _ (length' 0 1 1 _) 2 (by decide)]
  rw [if_pos whole]
  cases t.width with
  | w20 | w40 =>
    dsimp only
    rw [if_pos whole]
    exact narrow
  | w80 | w160 | w80P80 =>
    dsimp only
    rw [if_pos whole]
    exact wide (fun old => t.chosen old t.centerFreq1) fun old => t.chosen old t.centerFreq2
  | w20NoHt | w5 | w10 => rfl

end Edits

/-! ### The list -/

/-- The elements after the three searches in `n` bytes. -/
def rewritten (t : Chandef) (n : ℕ) (es : List Element) : List Element :=
  editWithin eidVhtOperation (putVht t) n
    (editWithin eidHtOperation (withHt t.chanNo t.htParam) n (editWithin eidDsParams (withDs t.chanNo) n es))

/-- What is done to an element that is found. -/
def put (t : Chandef) (e : Element) : Element :=
  if e.id = eidDsParams then withDs t.chanNo e
  else if e.id = eidHtOperation then withHt t.chanNo t.htParam e
  else if e.id = eidVhtOperation then putVht t e
  else e

section List

variable {t : Chandef} {n : ℕ} {es : List Element}

theorem length_rewritten : (elementsBytes (rewritten t n es)).length = (elementsBytes es).length := by
  unfold rewritten
  rw [length_editWithin (keeps_putVht t), length_editWithin (keeps_withHt _ _), length_editWithin (keeps_withDs _)]

theorem edit_findVar {edit : List Byte → ℕ → List Byte} {f : Element → Element} (edits : Edits edit f) (id : Byte)
    (b : Beacon) (rest : List Byte) (inside : n ≤ (elementsBytes b.elems).length) :
    editAt edit varOffset (b.bytes ++ rest) (findVar id n (b.bytes ++ rest)) =
      (b.withElems (editWithin id f n b.elems)).bytes ++ rest := by
  have frame (es : List Element) : (b.withElems es).bytes ++ rest = b.header ++ (elementsBytes es ++ rest) :=
    List.append_assoc _ _ _
  have found := edit_found id edits inside b.header rest
  have window : findVar id n (b.bytes ++ rest) = findElement id ((elementsBytes b.elems ++ rest).take n) := by
    unfold findVar
    rw [show b.bytes ++ rest = b.header ++ (elementsBytes b.elems ++ rest) from frame b.elems, ← b.whole,
      List.drop_left]
  rw [window, frame, ← found, b.whole]
  congr 1
  exact frame b.elems

theorem rewriteIes_bytes (b : Beacon) (rest : List Byte) {len : Byte}
    (inside : len.toNat ≤ (elementsBytes b.elems).length) :
    rewriteIes t (b.bytes ++ rest) len = (b.withElems (rewritten t len.toNat b.elems)).bytes ++ rest := by
  have inside' : len.toNat ≤ (elementsBytes (editWithin eidDsParams (withDs t.chanNo) len.toNat b.elems)).length := by
    rw [length_editWithin (keeps_withDs _)]
    exact inside
  have inside'' : len.toNat ≤ (elementsBytes (editWithin eidHtOperation (withHt t.chanNo t.htParam) len.toNat
      (editWithin eidDsParams (withDs t.chanNo) len.toNat b.elems))).length := by
    rw [length_editWithin (keeps_withHt _ _)]
    exact inside'
  unfold rewriteIes
  dsimp only
  rw [edit_findVar (setDs_edits t) _ b rest inside, edit_findVar (setHt_edits t) _ (b.withElems _) rest inside']
  exact edit_findVar (setVht_edits t) _ ((b.withElems _).withElems _) rest inside''

theorem ite_id {f : Element → Element} (keeps : Keeps f) (c : Prop) [Decidable c] (e : Element) :
    (if c then f e else e).id = e.id := by
  split
  case isTrue => exact keeps.id e
  case isFalse => rfl

theorem reached_id {id : Byte} {i : ℕ} {e : Element} (here : e.id = id) :
    (e.id = id ∧ Reached id n es i) ↔ Reached e.id n es i := by
  rw [here]
  exact and_iff_right rfl

theorem getElem?_rewritten (i : ℕ) : (rewritten t n es)[i]? =
    es[i]?.map fun e => if Reached e.id n es i then put t e else e := by
  unfold rewritten
  rw [getElem?_editWithin, getElem?_editWithin, getElem?_editWithin, map_map, map_map]
  refine Option.map_congr fun e _ => ?_
  dsimp only [Function.comp_apply]
  simp only [reached_editWithin (keeps_withHt _ _), reached_editWithin (keeps_withDs _), ite_id (keeps_withHt _ _),
    ite_id (keeps_withDs _)]
  have none {id : Byte} (other : e.id ≠ id) : ¬(e.id = id ∧ Reached id n es i) := fun both => other both.1
  unfold put
  by_cases ds : e.id = eidDsParams
  · have htNot : e.id ≠ eidHtOperation := fun ht => nomatch ds.symm.trans ht
    have vhtNot : e.id ≠ eidVhtOperation := fun vht => nomatch ds.symm.trans vht
    rw [if_neg (none vhtNot), if_neg (none htNot), if_pos ds]
    exact if_congr (reached_id ds) rfl rfl
  rw [if_neg (none ds), if_neg ds]
  by_cases ht : e.id = eidHtOperation
  · have vhtNot : e.id ≠ eidVhtOperation := fun vht => nomatch ht.symm.trans vht
    rw [if_neg (none vhtNot), if_pos ht]
    exact if_congr (reached_id ht) rfl rfl
  rw [if_neg (none ht), if_neg ht]
  by_cases vht : e.id = eidVhtOperation
  · rw [if_pos vht]
    exact if_congr (reached_id vht) rfl rfl
  · rw [if_neg (none vht), if_neg vht, ite_self]

end List

/-! ### The target channel -/

def Beacon.retarget (b : Beacon) (t : Chandef) : Beacon := b.withElems (b.elems.map (Scc.retarget t))

/-- **What is stored, and the frame for the firmware, announce the target channel**, and nothing else changed. -/
structure Retargeted (b : Beacon) (t : Chandef) (s : Bufs) (frame : Option (List Byte)) : Prop where
  saved : s.bcnSave.load b.size = some (b.retarget t).bytes
  sent : ∀ f, frame = some f → f = (b.retarget t).bytes

def ChangesTo (s : Bufs) (memory : Option Frmbuf) (b : Beacon) (t : Chandef) : Prop :=
  ∃ s' frame, changeBeaconHtIe s memory b.size t = some (s', frame) ∧ Retargeted b t s' frame

/-- The low bits of `ht_param` are right: up to 40 MHz, and where the primary channel's half of the segment is the
side its pair is on. -/
def Chandef.HtMeets (t : Chandef) : Prop :=
  match t.width with
  | .w20NoHt | .w20 | .w40 => True
  | .w80 | .w80P80 =>
    t.centerFreq < t.centerFreq1 ∧ t.place 40 % 2 = 0 ∨ t.centerFreq1 < t.centerFreq ∧ t.place 40 % 2 = 1
  | .w160 => t.centerFreq < t.centerFreq1 ∧ t.place 80 % 2 = 0 ∨ t.centerFreq1 < t.centerFreq ∧ t.place 80 % 2 = 1
  | .w5 | .w10 => False

/-- The width and the segments that stand in a VHT operation element. -/
def vhtFields (e : Element) : Byte × Byte × Byte := (e.data.getD 0 0, e.data.getD 1 0, e.data.getD 2 0)

/-- The fields of a VHT operation element are right: at 20 and 40 MHz, where they are already for a width that is
not handled, and where the segments that are written or left are those of the target. -/
def Chandef.VhtMeets (t : Chandef) (e : Element) : Prop :=
  match t.width with
  | .w20 | .w40 => True
  | .w20NoHt | .w5 | .w10 => vhtFields e = (0, 0, 0)
  | .w80 => t.chosen (e.data.getD 1 0) t.centerFreq1 = t.segment t.centerFreq1 ∧
      t.chosen (e.data.getD 2 0) t.centerFreq2 = 0
  | .w80P80 => t.chosen (e.data.getD 1 0) t.centerFreq1 = t.segment t.centerFreq1 ∧
      t.chosen (e.data.getD 2 0) t.centerFreq2 = t.segment t.centerFreq2
  | .w160 => t.chosen (e.data.getD 1 0) t.centerFreq1 = t.segment t.primary80 ∧
      t.chosen (e.data.getD 2 0) t.centerFreq2 = t.segment t.centerFreq1

instance (t : Chandef) : Decidable t.HtMeets := by
  unfold Chandef.HtMeets
  cases t.width <;> infer_instance

instance (t : Chandef) (e : Element) : Decidable (t.VhtMeets e) := by
  unfold Chandef.VhtMeets
  cases t.width <;> infer_instance

/-- **An element that is found gets the fields of the target.** -/
def Meets (t : Chandef) (e : Element) : Prop :=
  (e.id = eidHtOperation ∧ 22 ≤ e.data.length → t.HtMeets) ∧
    (e.id = eidVhtOperation ∧ 5 ≤ e.data.length → t.VhtMeets e)

instance (t : Chandef) (e : Element) : Decidable (Meets t e) := inferInstanceAs (Decidable (_ ∧ _))

section Meets

variable {t : Chandef} {e : Element}

theorem htParam_low : t.htParam &&& 7 = t.htParam := by
  unfold Chandef.htParam
  split
  · split
    · decide
    · split <;> decide
  · decide

theorem secondary_low : t.secondary &&& 7 = t.secondary := by
  unfold Chandef.secondary
  cases t.width with
  | w20NoHt | w20 | w5 | w10 => exact BitVec.zero_and
  | w40 =>
    dsimp only
    split
    · decide
    · split <;> decide
  | w80 | w80P80 | w160 =>
    dsimp only
    split <;> decide

theorem htParam_eq : t.htParam = t.secondary ↔ t.HtMeets := by
  have sides (half : ℕ) : (4 ||| if t.centerFreq1 < t.centerFreq then (3 : Byte) else
      if t.centerFreq < t.centerFreq1 then 1 else 0) = (if t.place half % 2 = 0 then 5 else 7) ↔
      t.centerFreq < t.centerFreq1 ∧ t.place half % 2 = 0 ∨ t.centerFreq1 < t.centerFreq ∧ t.place half % 2 = 1 := by
    have parity : t.place half % 2 = 1 ↔ ¬t.place half % 2 = 0 := by omega
    rw [parity]
    by_cases above : t.centerFreq1 < t.centerFreq
    · have notBelow : ¬t.centerFreq < t.centerFreq1 := BitVec.lt_asymm above
      rw [if_pos above]
      by_cases even : t.place half % 2 = 0
      · rw [if_pos even]
        exact iff_of_false (by decide) fun one => one.elim (fun b => notBelow b.1) fun b => b.2 even
      · rw [if_neg even]
        exact iff_of_true rfl (.inr ⟨above, even⟩)
    rw [if_neg above]
    by_cases below : t.centerFreq < t.centerFreq1
    · rw [if_pos below]
      by_cases even : t.place half % 2 = 0
      · rw [if_pos even]
        exact iff_of_true rfl (.inl ⟨below, even⟩)
      · rw [if_neg even]
        exact iff_of_false (by decide) fun one => one.elim (fun b => even b.2) fun b => above b.1
    · rw [if_neg below]
      refine iff_of_false ?_ fun one => one.elim (fun b => below b.1) fun b => above b.1
      split <;> decide
  unfold Chandef.htParam Chandef.secondary Chandef.HtMeets
  cases t.width with
  | w20NoHt | w20 => exact iff_of_true rfl trivial
  | w40 =>
    refine iff_of_true ?_ trivial
    dsimp only
    rw [if_pos (by decide)]
    split
    · rfl
    · split <;> rfl
  | w80 | w80P80 => exact sides 40
  | w160 => exact sides 80
  | w5 | w10 =>
    refine iff_of_false ?_ not_false
    dsimp only
    rw [if_pos (by decide)]
    split
    · decide
    · split <;> decide

theorem withHt_eq {chan p q : Byte} (low : p &&& 7 = p) (low' : q &&& 7 = q) :
    withHt chan p e = withHt chan q e ↔ (22 ≤ e.data.length → p = q) := by
  unfold withHt
  by_cases whole : 22 ≤ e.data.length
  · rw [if_pos whole, if_pos whole, imp_iff_right whole]
    refine ⟨fun same => ?_, fun same => by rw [same]⟩
    have inside : 1 < (e.setData 0 chan).data.length := by
      rw [length_setData]
      omega
    have bytes := congrArg (fun e : Element => e.data.getD 1 0) same
    rw [getD_setData_self inside, getD_setData_self inside] at bytes
    have cut (old r : Byte) (low : r &&& 7 = r) : (old &&& 0xF8 ||| r) &&& 7 = r := by
      rw [BitVec.and_or_distrib_right, BitVec.and_assoc, low]
      show old &&& 0#8 ||| r = r
      rw [BitVec.and_zero, BitVec.zero_or]
    rw [← cut _ p low, bytes, cut _ q low']
  · rw [if_neg whole, if_neg whole]
    exact iff_of_true rfl fun long => absurd long whole

theorem vhtFields_withVht (whole : 5 ≤ e.data.length) (fields : Byte × Byte × Byte) :
    vhtFields (withVht fields e) = fields := by
  have inside (i : ℕ) (low : i < 3) : i < e.data.length := by omega
  unfold vhtFields withVht
  rw [if_pos whole]
  have last : (((e.setData 0 fields.1).setData 1 fields.2.1).setData 2 fields.2.2).data.getD 2 0 = fields.2.2 := by
    refine getD_setData_self ?_ _
    rw [length_setData, length_setData]
    exact inside 2 (by decide)
  have second : (((e.setData 0 fields.1).setData 1 fields.2.1).setData 2 fields.2.2).data.getD 1 0 = fields.2.1 := by
    rw [getD_setData (by decide)]
    refine getD_setData_self ?_ _
    rw [length_setData]
    exact inside 1 (by decide)
  have first : (((e.setData 0 fields.1).setData 1 fields.2.1).setData 2 fields.2.2).data.getD 0 0 = fields.1 := by
    rw [getD_setData (by decide), getD_setData (by decide)]
    exact getD_setData_self (inside 0 (by decide)) _
  rw [first, second, last]

theorem withVht_eq {fields fields' : Byte × Byte × Byte} :
    withVht fields e = withVht fields' e ↔ (5 ≤ e.data.length → fields = fields') := by
  by_cases whole : 5 ≤ e.data.length
  · rw [imp_iff_right whole]
    refine ⟨fun same => ?_, fun same => by rw [same]⟩
    rw [← vhtFields_withVht whole fields, same, vhtFields_withVht whole]
  · unfold withVht
    rw [if_neg whole, if_neg whole]
    exact iff_of_true rfl fun long => absurd long whole

theorem withVht_self : withVht (vhtFields e) e = e := by
  unfold withVht vhtFields
  split
  case isTrue =>
    dsimp only
    rw [setData_getD, setData_getD, setData_getD]
  case isFalse => rfl

theorem putVht_eq : putVht t e = withVht t.vhtOper e ↔ (5 ≤ e.data.length → t.VhtMeets e) := by
  unfold putVht Chandef.vhtOper Chandef.VhtMeets
  cases t.width with
  | w20 | w40 => exact iff_of_true rfl fun _ => trivial
  | w20NoHt | w5 | w10 =>
    have same : e = withVht (0, 0, 0) e ↔ withVht (vhtFields e) e = withVht (0, 0, 0) e := by rw [withVht_self]
    exact same.trans withVht_eq
  | w80 | w80P80 | w160 =>
    dsimp only
    rw [withVht_eq]
    refine imp_congr_right fun _ => ?_
    rw [Prod.mk.injEq, Prod.mk.injEq]
    exact and_iff_right rfl

theorem put_eq : put t e = retarget t e ↔ Meets t e := by
  unfold put retarget Meets
  by_cases ds : e.id = eidDsParams
  · rw [if_pos ds, if_pos ds]
    exact iff_of_true rfl ⟨fun both => absurd (ds.symm.trans both.1) (by decide),
      fun both => absurd (ds.symm.trans both.1) (by decide)⟩
  rw [if_neg ds, if_neg ds]
  by_cases ht : e.id = eidHtOperation
  · rw [if_pos ht, if_pos ht, withHt_eq htParam_low secondary_low, htParam_eq]
    refine ⟨fun meets => ⟨fun both => meets both.2, fun both => absurd (ht.symm.trans both.1) (by decide)⟩, ?_⟩
    exact fun meets whole => meets.1 ⟨ht, whole⟩
  rw [if_neg ht, if_neg ht]
  by_cases vht : e.id = eidVhtOperation
  · rw [if_pos vht, if_pos vht, putVht_eq]
    exact ⟨fun meets => ⟨fun both => absurd both.1 ht, fun both => meets both.2⟩,
      fun meets whole => meets.2 ⟨vht, whole⟩⟩
  · rw [if_neg vht, if_neg vht]
    exact iff_of_true rfl ⟨fun both => absurd both.1 ht, fun both => absurd both.1 vht⟩

end Meets

/-! ### The call -/

/-- **The condition**: the beacon fits the buffers; an element that is found, when there is a buffer, in as many bytes
as the `u8` says meets, and every other one has the target's fields already. -/
def RewriteGuard (s : Bufs) (memory : Option Frmbuf) (b : Beacon) (t : Chandef) : Prop :=
  b.size ≤ frmbufMaxlen ∧ ∀ i : Fin b.elems.length, if (s.sccBcnBuf ≠ none ∨ memory ≠ none) ∧
      Reached (b.elems.get i).id ((b.size - varOffset) % 256) b.elems i then Meets t (b.elems.get i)
    else retarget t (b.elems.get i) = b.elems.get i

instance (s : Bufs) (memory : Option Frmbuf) (b : Beacon) (t : Chandef) : Decidable (RewriteGuard s memory b t) :=
  inferInstanceAs (Decidable (_ ∧ _))

section Call

variable {s : Bufs} {memory : Option Frmbuf} {b : Beacon} {t : Chandef}

/-- The `u8`. -/
theorem toNat_len (b : Beacon) :
    (BitVec.ofNat 8 b.size - BitVec.ofNat 8 varOffset).toNat = (b.size - varOffset) % 256 := by
  have size := b.size_eq
  rw [BitVec.toNat_sub, BitVec.toNat_ofNat, BitVec.toNat_ofNat, size]
  show (2 ^ 8 - 36 % 2 ^ 8 + (36 + (elementsBytes b.elems).length) % 2 ^ 8) % 2 ^ 8 =
    (36 + (elementsBytes b.elems).length - 36) % 256
  omega

theorem changeBeaconHtIe_some {old : Frmbuf} (buffer : (s.sccBcnBuf <|> memory) = some old)
    (fits : b.size ≤ frmbufMaxlen) (stored : b.bytes <+: s.bcnSave.bytes) :
    ∃ s', changeBeaconHtIe s memory b.size t =
        some (s', some (b.withElems (rewritten t ((b.size - varOffset) % 256) b.elems)).bytes) ∧
      s'.bcnSave.load b.size = some (b.withElems (rewritten t ((b.size - varOffset) % 256) b.elems)).bytes := by
  generalize after : b.withElems (rewritten t ((b.size - varOffset) % 256) b.elems) = b'
  have size : b'.size = b.size := by
    rw [← after, Beacon.size_eq, Beacon.size_eq]
    exact congrArg (varOffset + ·) length_rewritten
  have saved : s.bcnSave.load b.size = some b.bytes := Frmbuf.load_eq_some.mpr ⟨rfl, stored⟩
  obtain ⟨buf, copied⟩ := Frmbuf.store_isSome (b := old) fits
  have inside : (BitVec.ofNat 8 b.size - BitVec.ofNat 8 varOffset).toNat ≤ (elementsBytes b.elems).length := by
    rw [toNat_len, b.size_eq, Nat.add_sub_cancel_left]
    exact Nat.mod_le _ _
  have edited : (buf.rewrite t (BitVec.ofNat 8 b.size - BitVec.ofNat 8 varOffset)).bytes =
      b'.bytes ++ old.bytes.drop b.bytes.length := by
    show rewriteIes t buf.bytes _ = _
    rw [(Frmbuf.store_eq_some.mp copied).2, rewriteIes_bytes b _ inside, toNat_len, after]
  have frame : (buf.rewrite t (BitVec.ofNat 8 b.size - BitVec.ofNat 8 varOffset)).load b.size = some b'.bytes := by
    rw [Frmbuf.load_eq_some, edited]
    exact ⟨size, List.prefix_append _ _⟩
  obtain ⟨save, kept⟩ := Frmbuf.store_isSome (b := s.bcnSave) (size.trans_le fits)
  have read : save.load b.size = some b'.bytes := by
    rw [← size]
    exact Frmbuf.load_store kept
  refine ⟨{ bcnSave := save, sccBcnBuf := some (buf.rewrite t
    (BitVec.ofNat 8 b.size - BitVec.ofNat 8 varOffset)) }, ?_, read⟩
  unfold changeBeaconHtIe
  rw [buffer]
  simp only [saved, copied, frame, kept, bind_eq_bind, bind_some]
  rfl

theorem changeBeaconHtIe_ends {old : Frmbuf} (buffer : (s.sccBcnBuf <|> memory) = some old) {bcnLen : ℕ}
    (fits : bcnLen ≤ frmbufMaxlen) : ∃ r, changeBeaconHtIe s memory bcnLen t = some r := by
  have length (b : Frmbuf) : (b.bytes.take bcnLen).length ≤ frmbufMaxlen := (List.length_take_le _ _).trans fits
  have saved : s.bcnSave.load bcnLen = some (s.bcnSave.bytes.take bcnLen) := if_pos fits
  obtain ⟨buf, copied⟩ := Frmbuf.store_isSome (b := old) (length s.bcnSave)
  have frame (len : Byte) : (buf.rewrite t len).load bcnLen = some ((buf.rewrite t len).bytes.take bcnLen) :=
    if_pos fits
  obtain ⟨save, kept⟩ := Frmbuf.store_isSome (b := s.bcnSave)
    (length (buf.rewrite t (BitVec.ofNat 8 bcnLen - BitVec.ofNat 8 varOffset)))
  unfold changeBeaconHtIe
  rw [buffer]
  simp only [saved, copied, frame, kept, bind_eq_bind, bind_some]
  exact ⟨_, rfl⟩

theorem changeBeaconHtIe_none (noBuffer : (s.sccBcnBuf <|> memory) = none) (bcnLen : ℕ) :
    changeBeaconHtIe s memory bcnLen t = some (s, none) := by
  unfold changeBeaconHtIe
  rw [noBuffer]

theorem changeBeaconHtIe_overrun {old : Frmbuf} (buffer : (s.sccBcnBuf <|> memory) = some old) {bcnLen : ℕ}
    (long : ¬bcnLen ≤ frmbufMaxlen) : changeBeaconHtIe s memory bcnLen t = none := by
  unfold changeBeaconHtIe
  rw [buffer]
  have outside : s.bcnSave.load bcnLen = none := if_neg long
  simp only [outside, bind_eq_bind, Option.bind_none]

theorem eq_map_iff {es es' : List Element} {f : ℕ → Element → Element} {g : Element → Element}
    (each : ∀ i, es'[i]? = es[i]?.map (f i)) :
    es' = es.map g ↔ ∀ i : Fin es.length, f i (es.get i) = g (es.get i) := by
  rw [List.ext_getElem?_iff]
  constructor
  · intro same i
    have here := same i
    rw [each, List.getElem?_map, List.getElem?_eq_getElem i.isLt] at here
    exact some.inj here
  · intro same i
    rw [each, List.getElem?_map]
    refine Option.map_congr fun e here => ?_
    obtain ⟨inside, rfl⟩ := List.getElem?_eq_some_iff.mp here
    exact same ⟨i, inside⟩

theorem changesTo_iff {s' : Bufs} {frame : Option (List Byte)}
    (result : changeBeaconHtIe s memory b.size t = some (s', frame)) :
    ChangesTo s memory b t ↔ Retargeted b t s' frame := by
  refine ⟨fun ⟨s'', frame', other, done⟩ => ?_, fun done => ⟨s', frame, result, done⟩⟩
  obtain ⟨rfl, rfl⟩ := Prod.mk.inj (some.inj (result.symm.trans other))
  exact done

/-- **The beacon is that of the target channel exactly when** the condition holds. -/
theorem changeBeaconHtIe_right (s : Bufs) (memory : Option Frmbuf) (b : Beacon) (t : Chandef)
    (stored : b.bytes.take frmbufMaxlen <+: s.bcnSave.bytes) :
    ChangesTo s memory b t ↔ RewriteGuard s memory b t := by
  unfold RewriteGuard
  cases buffer : s.sccBcnBuf <|> memory with
  | none =>
    have noBuffer := noBuffer_iff.mp buffer
    rw [changesTo_iff (changeBeaconHtIe_none buffer _)]
    by_cases fits : b.size ≤ frmbufMaxlen
    swap
    · refine iff_of_false (fun done => ?_) fun both => fits both.1
      exact Option.some_ne_none _ (done.saved.symm.trans (if_neg fits))
    rw [List.take_of_length_le fits] at stored
    have saved : s.bcnSave.load b.size = some (b.withElems b.elems).bytes := Frmbuf.load_eq_some.mpr ⟨rfl, stored⟩
    have same : Retargeted b t s none ↔ b.elems = b.elems.map (retarget t) := by
      refine ⟨fun done => ?_, fun same => ⟨?_, fun _ there => nomatch there⟩⟩
      · exact Beacon.bytes_withElems_inj.mp (Option.some.inj (saved.symm.trans done.saved))
      · exact saved.trans (congrArg some (Beacon.bytes_withElems_inj.mpr same))
    rw [same, and_iff_right fits, eq_map_iff fun i => Option.map_id'.symm]
    refine forall_congr' fun i => ?_
    rw [if_neg fun both => noBuffer both.1]
    exact eq_comm
  | some old =>
    have some := buffer_of_some buffer
    by_cases fits : b.size ≤ frmbufMaxlen
    swap
    · unfold ChangesTo
      rw [changeBeaconHtIe_overrun buffer fits]
      exact iff_of_false (fun ⟨_, _, result, _⟩ => nomatch result) fun both => fits both.1
    rw [List.take_of_length_le fits] at stored
    obtain ⟨s', result, saved⟩ := changeBeaconHtIe_some (t := t) buffer fits stored
    have same : Retargeted b t s' (Option.some
          (b.withElems (rewritten t ((b.size - varOffset) % 256) b.elems)).bytes) ↔
        rewritten t ((b.size - varOffset) % 256) b.elems = b.elems.map (retarget t) := by
      rw [← Beacon.bytes_withElems_inj (b := b)]
      refine ⟨fun done => Option.some.inj (saved.symm.trans done.saved), fun same => ⟨?_, fun f here => ?_⟩⟩
      · exact saved.trans (congrArg Option.some same)
      · exact (Option.some.inj here).symm.trans same
    rw [changesTo_iff result, same, and_iff_right fits, eq_map_iff getElem?_rewritten]
    refine forall_congr' fun i => ?_
    by_cases found : Reached (b.elems.get i).id ((b.size - varOffset) % 256) b.elems i
    · rw [if_pos found, if_pos ⟨some, found⟩]
      exact put_eq
    · rw [if_neg found, if_neg fun both => found both.2]
      exact eq_comm

end Call

/-! ### Two beacons -/

def channel6 : Chandef := ⟨.band2GHz, 2437, .w20, 2437, 0⟩

/-- Channel 1 in 3 bytes, and 21 bytes behind them. -/
def shortBeacon : Beacon := beaconOf [⟨3, [1], one_short⟩, ⟨221, List.replicate 19 0, by decide⟩]

theorem changeBeaconHtIe_right_short : ChangesTo (bufsOf shortBeacon) none shortBeacon channel6 :=
  (changeBeaconHtIe_right (bufsOf shortBeacon) none shortBeacon channel6 (bufsOf_stored (by decide +kernel))).mpr
    (by decide +kernel)

/-- Channel 1 in 3 bytes, and 253 bytes behind them. -/
def longBeacon : Beacon := beaconOf
  [⟨3, [1], one_short⟩, ⟨221, List.replicate 251 0, by rw [List.length_replicate]; decide⟩]

/-- **Of 256 bytes of elements none is searched**: the beacon still announces channel 1. -/
theorem ds_missed : longBeacon.bytes.take frmbufMaxlen <+: (bufsOf longBeacon).bcnSave.bytes ∧
    ¬ChangesTo (bufsOf longBeacon) none longBeacon channel6 := by
  refine ⟨bufsOf_stored (by decide +kernel), fun ⟨s', frame, result, done⟩ => ?_⟩
  have missed : ((changeBeaconHtIe (bufsOf longBeacon) none longBeacon.size channel6).bind fun r =>
      r.1.bcnSave.load longBeacon.size) ≠ some (longBeacon.retarget channel6).bytes := by decide +kernel
  refine missed ?_
  rw [result, Option.bind_some]
  exact done.saved

end W2l.Scc
