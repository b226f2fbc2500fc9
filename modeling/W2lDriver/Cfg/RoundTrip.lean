/-
**The configuration file: when the round trip succeeds and when it stays inside its buffers.**

* `storedText` — the file of `storeCfg`: of the three lines those whose file buffer passed.
* `findTag_text` — what the search finds in a buffer, and what follows the value there.
-/

import Mathlib.Data.List.TakeWhile
import W2lDriver.Cfg.File

namespace W2l.Cfg

open Lib
open List (append_assoc append_cons append_nil cons_append drop_drop drop_length length_append length_cons
  mem_append mem_append_right mem_cons mem_cons_self nil_append not_mem_nil take_nil take_of_length_le)
open Option (bind_eq_bind bind_eq_some_iff bind_some isSome_iff_exists map_some some.inj)

/-! ### Reading and writing a file -/

section

variable (more : ℕ → ℕ)

include more

theorem cfgReadLoop_eq {fuel room : ℕ} (enough : room ≤ fuel) (k : ℕ) (fp : CfgFile) :
    cfgReadLoop more fuel k room fp = ((fp.data.drop fp.fPos).take room,
      { fp with fPos := fp.fPos + ((fp.data.drop fp.fPos).take room).length }) := by
  induction fuel generalizing k room fp with
  | zero =>
    obtain rfl : room = 0 := Nat.le_zero.mp enough
    rfl
  | succ fuel ih =>
    rw [cfgReadLoop]
    dsimp only
    by_cases nothing : (fp.data.drop fp.fPos).take (min room (more k + 1)) = []
    · have empty : (fp.data.drop fp.fPos).take room = [] := by
        rcases List.take_eq_nil_iff.mp nothing with full | atEnd
        · obtain rfl : room = 0 := by omega
          rfl
        · rw [atEnd, take_nil]
      rw [if_pos nothing, empty]
      rfl
    · have roomy : room ≠ 0 := by
        rintro rfl
        exact nothing (by rw [Nat.zero_min, List.take_zero])
      generalize split : min room (more k + 1) = j at nothing ⊢
      have below : j ≤ room := split ▸ Nat.min_le_left _ _
      have positive : 0 < j := by omega
      have got : 0 < ((fp.data.drop fp.fPos).take j).length := List.length_pos_of_ne_nil nothing
      have whole : (fp.data.drop fp.fPos).take j ++ ((fp.data.drop (fp.fPos +
          ((fp.data.drop fp.fPos).take j).length)).take
            (room - ((fp.data.drop fp.fPos).take j).length)) = (fp.data.drop fp.fPos).take room := by
        rw [← drop_drop]
        generalize fp.data.drop fp.fPos = rest
        by_cases long : j ≤ rest.length
        · rw [List.length_take_of_le long, ← List.take_add, Nat.add_sub_cancel' below]
        · rw [take_of_length_le (by omega), drop_length, take_nil, append_nil, take_of_length_le (by omega)]
      rw [if_neg nothing, ih (by omega)]
      dsimp only
      rw [whole, ← whole, length_append, Nat.add_assoc]

theorem amlCfgRead_eq (fp : CfgFile) (len : ℕ) : amlCfgRead more fp len = ((fp.data.drop fp.fPos).take len,
      { fp with fPos := fp.fPos + ((fp.data.drop fp.fPos).take len).length }) :=
  cfgReadLoop_eq more (Nat.le_refl len) 0 fp

theorem cfgWriteLoop_end {fuel : ℕ} {buf : List Byte} (enough : buf.length ≤ fuel) (k : ℕ)
    (data : List Byte) : cfgWriteLoop more fuel k buf ⟨data, data.length⟩ = ⟨data ++ buf, (data ++ buf).length⟩ := by
  induction fuel generalizing k buf data with
  | zero =>
    obtain rfl : buf = [] := List.length_eq_zero_iff.mp (Nat.le_zero.mp enough)
    rw [cfgWriteLoop, append_nil]
  | succ fuel ih =>
    rw [cfgWriteLoop]
    dsimp only
    have appended : data.take data.length ++ buf.take (more k + 1) ++
        data.drop (data.length + (buf.take (more k + 1)).length) = data ++ buf.take (more k + 1) := by
      rw [List.take_length, List.drop_eq_nil_of_le (Nat.le_add_right _ _), append_nil]
    have shorter : (buf.drop (buf.take (more k + 1)).length).length ≤ fuel := by
      rw [List.length_drop, List.length_take]
      omega
    have rest : buf.take (more k + 1) ++ buf.drop (buf.take (more k + 1)).length = buf := by
      by_cases long : more k + 1 ≤ buf.length
      · rw [List.length_take_of_le long, List.take_append_drop]
      · rw [take_of_length_le (by omega), drop_length, append_nil]
    rw [appended, ← length_append, ih shorter, append_assoc, rest]

theorem amlCfgWrite_end (data buf : List Byte) :
    amlCfgWrite more ⟨data, data.length⟩ buf = ⟨data ++ buf, (data ++ buf).length⟩ :=
  cfgWriteLoop_end more (Nat.le_refl _) 0 data

end

theorem tagLine_length (tagName tagValue : List Byte) :
    (tagLine tagName tagValue).length = tagName.length + tagValue.length + 2 := by
  rw [tagLine, length_append, length_append, length_cons, List.length_singleton]
  omega

def storedLine (stack tagName tagValue : List Byte) : List Byte :=
  if Fits stack (tagName.length + tagValue.length + 2) then tagLine tagName tagValue else []

theorem amlCfgStoreTag_end (more : ℕ → ℕ) (stack data tagName tagValue : List Byte)
    (short : tagName.length + tagValue.length ≤ AML_CFG_LBUF_MAXLEN) :
    (amlCfgStoreTag more stack ⟨data, data.length⟩ tagName tagValue).fp =
      ⟨data ++ storedLine stack tagName tagValue, (data ++ storedLine stack tagName tagValue).length⟩ := by
  have read : amlCfgRead more ⟨data, data.length⟩ AML_CFG_FBUF_MAXLEN = ([], ⟨data, data.length⟩) := by
    rw [amlCfgRead_eq]
    dsimp only
    rw [drop_length, take_nil]
    rfl
  have buffer : fileBuffer more stack ⟨data, data.length⟩ = stack := by
    rw [fileBuffer, read]
    rfl
  rw [amlCfgStoreTag, if_neg (Nat.not_lt.mpr short)]
  dsimp only
  rw [buffer, read, tagLine_length, storedLine]
  by_cases fits : Fits stack (tagName.length + tagValue.length + 2)
  · rw [if_neg (Nat.not_lt.mpr fits), if_pos fits]
    exact amlCfgWrite_end more data _
  · rw [if_pos (Nat.lt_of_not_le fits), if_neg fits, append_nil]

/-! ### What the search finds in a buffer -/

/-- `fbuf` of `aml_cfg_from_file`. -/
def padded (got : List Byte) : List Byte :=
  got ++ List.replicate (AML_CFG_FBUF_MAXLEN - got.length) 0

theorem untilNul_append (got rest : List Byte) : untilNul (got ++ 0 :: rest) = untilNul got := by
  induction got with
  | nil => rfl
  | cons c got ih =>
    rw [cons_append, untilNul, untilNul, List.takeWhile_cons, List.takeWhile_cons]
    split
    · exact congrArg (c :: ·) ih
    · rfl

theorem padded_eq {got : List Byte} (short : got.length < AML_CFG_FBUF_MAXLEN) :
    untilNul (padded got) = untilNul got ∧ ∃ rest, padded got = untilNul got ++ 0 :: rest := by
  obtain ⟨pad, size⟩ := Nat.exists_eq_succ_of_ne_zero (Nat.sub_ne_zero_of_lt short)
  have text : untilNul (padded got) = untilNul got := by
    rw [padded, size, List.replicate_succ, untilNul_append]
  refine ⟨text, ?_⟩
  have whole : untilNul (padded got) ++ (padded got).dropWhile (· ≠ 0) = padded got :=
    List.takeWhile_append_dropWhile
  have nul : (0 : Byte) ∈ padded got := by
    rw [padded, size, List.replicate_succ]
    exact mem_append_right got mem_cons_self
  cases after : (padded got).dropWhile (· ≠ 0) with
  | nil =>
    have all := List.dropWhile_eq_nil_iff.mp after 0 nul
    simp at all
  | cons c rest =>
    have stops := List.head?_dropWhile_not (fun x : Byte => decide (x ≠ 0)) (padded got)
    rw [after] at stops
    obtain rfl : c = 0 := by simpa using stops
    rw [after, text] at whole
    exact ⟨rest, whole.symm⟩

theorem findTag_padded {got : List Byte} (short : got.length < AML_CFG_FBUF_MAXLEN) (tagName : List Byte)
    (tagLen : ℕ) :
    (amlCfgFindTag (padded got) (strlen (padded got)) tagName tagLen = some none ∧
        valueOf tagName tagLen (untilNul got) = none) ∨
      ∃ k value c rest, amlCfgFindTag (padded got) (strlen (padded got)) tagName tagLen = some (some k) ∧
        valueOf tagName tagLen (untilNul got) = some value ∧ value.length = tagLen ∧
        (padded got).drop k = value ++ c :: rest ∧ (c = newline ∨ c = 0) ∧ 0 ∈ c :: rest := by
  obtain ⟨text, zeros, whole⟩ := padded_eq short
  have size : strlen (padded got) = (untilNul got).length := by rw [strlen, text]
  have within : strlen (padded got) ≤ (padded got).length := by
    rw [size, whole, length_append]
    exact Nat.le_add_right _ _
  have taken : (padded got).take (strlen (padded got)) = untilNul got := by
    rw [size, whole, List.take_left]
  rw [amlCfgFindTag_eq within, taken]
  rcases position_spec tagName tagLen 0 (untilNul got) with
    ⟨absent, absent'⟩ | ⟨k, value, tail, found, found', length, rest, inside, ends⟩
  · exact .inl ⟨by rw [absent], absent'⟩
  · have memory : (padded got).drop k = value ++ (tail ++ 0 :: zeros) := by
      rw [whole, List.drop_append_of_le_length inside, rest, append_assoc]
    refine .inr ⟨k, value, ?_⟩
    cases tail with
    | nil =>
      exact ⟨0, zeros, by rw [found, Nat.zero_add], found', length, memory, .inr rfl, mem_cons_self⟩
    | cons c tail =>
      exact ⟨c, tail ++ 0 :: zeros, by rw [found, Nat.zero_add], found', length, memory,
        .inl (ends c rfl), List.mem_cons_of_mem c (mem_append_right tail mem_cons_self)⟩

/-! ### Conversions in front of a NUL -/

variable {str : List Byte}

theorem skipRadix_nul (nul : 0 ∈ str) : ∃ rest, skipRadix str = some rest ∧ 0 ∈ rest := by
  obtain _ | ⟨c, _ | ⟨x, rest⟩⟩ := str
  · cases nul
  · obtain rfl : (0 : Byte) = c := List.mem_singleton.mp nul
    exact ⟨[0], rfl, nul⟩
  · by_cases mark : c = 0x30 ∧ (x = 0x78 ∨ x = 0x58)
    · refine ⟨rest, by rw [skipRadix, if_pos mark.1, if_pos mark.2], ?_⟩
      rcases mem_cons.mp nul with rfl | later
      · exact absurd mark.1 (by decide)
      · rcases mem_cons.mp later with rfl | later
        · exact absurd mark.2 (by decide)
        · exact later
    · refine ⟨c :: x :: rest, ?_, nul⟩
      rw [skipRadix]
      split_ifs with zero other
      · exact absurd ⟨zero, other⟩ mark
      · rfl
      · rfl

theorem simpleStrtoul_nul (nul : 0 ∈ str) : ∃ v rest, simpleStrtoul str = some (v, rest) ∧ 0 ∈ rest := by
  obtain ⟨text, marked, nul⟩ := skipRadix_nul nul
  rcases scanHex_cases 0 text with ⟨digits, -⟩ | ⟨front, c, rest, rfl, digits, -, scanned⟩
  · exact absurd rfl (digits 0 nul)
  · refine ⟨(16 ^ front.length * 0 + hexNumber front) % 2 ^ 64, c :: rest, ?_, ?_⟩
    · rw [simpleStrtoul, marked, bind_eq_bind, bind_some, scanned]
      rfl
    · exact (mem_append.mp nul).resolve_left fun early => digits 0 early rfl

theorem skipSpaces_nul (nul : 0 ∈ str) : ∃ c rest, skipSpaces str = some (c :: rest) ∧ 0 ∈ c :: rest := by
  induction str with
  | nil => cases nul
  | cons c str ih =>
    rw [skipSpaces]
    split
    · next space =>
      refine ih ((mem_cons.mp nul).resolve_left ?_)
      rintro rfl
      exact absurd space (by decide)
    · exact ⟨c, str, rfl, nul⟩

theorem scanOctets_nul (n : ℕ) (nul : 0 ∈ str) : ∃ octets, scanOctets n str = some octets := by
  induction n generalizing str with
  | zero => exact ⟨[], rfl⟩
  | succ n ih =>
    obtain ⟨c, rest, skipped, nul⟩ := skipSpaces_nul nul
    obtain ⟨v, next, converted, nul⟩ := simpleStrtoul_nul nul
    rw [scanOctets, skipped, bind_some]
    split
    · exact ⟨_, rfl⟩
    rw [converted, bind_some]
    dsimp only
    split
    · exact ⟨_, rfl⟩
    obtain _ | ⟨d, later⟩ := next
    · cases nul
    dsimp only
    split
    · next separator =>
      have later' : (0 : Byte) ∈ later := by
        refine (mem_cons.mp nul).resolve_left ?_
        rintro rfl
        exact absurd separator (by decide)
      obtain ⟨octets, scanned⟩ := ih later'
      exact ⟨_, by rw [scanned]; rfl⟩
    · exact ⟨_, rfl⟩

theorem readMac_some {got : List Byte} (short : got.length < AML_CFG_FBUF_MAXLEN) (tagName : List Byte)
    (mac : Mac) : ∃ mac', readMac (padded got) tagName mac = some mac' := by
  rcases findTag_padded short (tagName ++ [equalSign]) 17 with
    ⟨absent, -⟩ | ⟨k, value, c, rest, found, -, -, memory, -, nul⟩
  · exact ⟨mac, by rw [readMac, absent]; rfl⟩
  · obtain ⟨octets, scanned⟩ := scanOctets_nul 6 (mem_append_right value nul)
    exact ⟨storeOctets mac octets, by rw [readMac, found]; simp [memory, scanned]⟩

theorem readChipid_isSome {got : List Byte} (short : got.length < AML_CFG_FBUF_MAXLEN) (cfg : AmlCfg) :
    (readChipid (padded got) [] cfg).isSome = true ↔
      ∀ value, valueOf (chipIdTag ++ [equalSign]) AML_EFUSE_CHIPID_LEN (untilNul got) = some value →
        Ends (value.take 4) := by
  rcases findTag_padded short (chipIdTag ++ [equalSign]) AML_EFUSE_CHIPID_LEN with
    ⟨absent, absent'⟩ | ⟨k, value, c, rest, found, found', length, memory, -, nul⟩
  · rw [absent']
    exact iff_of_true (by rw [readChipid, absent]; rfl) fun _ no => nomatch no
  · have long : 4 ≤ value.length := by rw [length]; decide
    have low : 0 ∈ (padded got).drop (k + 4) := by
      rw [← drop_drop, memory, List.drop_append_of_le_length long]
      exact mem_append_right _ nul
    obtain ⟨v, next, converted, -⟩ := simpleStrtoul_nul low
    have digits : ((padded got).drop k).take 4 = value.take 4 := by
      rw [memory, List.take_append_of_le_length long]
    rw [found']
    constructor
    · rintro inside _ ⟨⟩
      rw [readChipid, found] at inside
      simp only [bind_eq_bind, bind_some, converted, digits, append_nil] at inside
      obtain ⟨after, ran⟩ := isSome_iff_exists.mp inside
      obtain ⟨high, converted', -⟩ := bind_eq_some_iff.mp ran
      rw [simpleStrtoul] at converted'
      obtain ⟨text, marked, scanned⟩ := bind_eq_some_iff.mp converted'
      obtain ⟨pair, scanned, -⟩ := bind_eq_some_iff.mp scanned
      exact ⟨text, marked, (scanHex_isSome 0 text).mp (by rw [scanned]; rfl)⟩
    · intro all
      obtain ⟨text, marked, other⟩ := all value rfl
      obtain ⟨pair, scanned⟩ := isSome_iff_exists.mp ((scanHex_isSome 0 text).mpr other)
      have converted' : simpleStrtoul (value.take 4) = some (pair.1 % 2 ^ 64, pair.2) := by
        rw [simpleStrtoul, marked]
        simp [scanned]
      rw [readChipid, found]
      simp [converted, digits, converted']

/-! ### What is written reads back -/

def Plain (text : List Byte) : Prop := newline ∉ text ∧ 0 ∉ text

theorem Plain.append {text rest : List Byte} (plain : Plain text) (plain' : Plain rest) : Plain (text ++ rest) :=
  ⟨fun mem => (mem_append.mp mem).elim plain.1 plain'.1, fun mem => (mem_append.mp mem).elim plain.2 plain'.2⟩

theorem plain_hexField (n v : ℕ) : Plain (hexField n v) :=
  ⟨fun mem => hexField_hexText n v _ mem rfl, fun mem => hexField_hexText n v _ mem rfl⟩

theorem plain_octetText (octets : List Byte) : Plain (octetText octets) := by
  induction octets with
  | nil => exact ⟨not_mem_nil, not_mem_nil⟩
  | cons b octets ih =>
    cases octets with
    | nil => exact plain_hexField 2 b.toNat
    | cons b' octets =>
      have separator : Plain [colon] := ⟨by decide, by decide⟩
      exact (plain_hexField 2 b.toNat).append (separator.append ih)

theorem octetText_length (b : Byte) (octets : List Byte) :
    (octetText (b :: octets)).length = 3 * octets.length + 2 := by
  induction octets generalizing b with
  | nil => exact hexField_length 2 b.toNat
  | cons b' octets ih =>
    rw [octetText, length_append, hexField_length, length_cons, ih, length_cons]
    · omega
    · simp

theorem macStr_length (mac : Mac) : (macStr mac).length = 17 := by
  have size : mac.toList.length = 6 := mac.length_toList
  rw [macStr]
  cases octets : mac.toList with
  | nil => rw [octets] at size; cases size
  | cons b octets' =>
    rw [octets, length_cons] at size
    rw [octetText_length]
    omega

theorem chipidStr_length (cfg : AmlCfg) : (chipidStr cfg).length = AML_EFUSE_CHIPID_LEN := by
  rw [chipidStr, length_append, hexField_length, hexField_length]

theorem skipRadix_hexField {n : ℕ} (wide : 2 ≤ n) (v : ℕ) (rest : List Byte) :
    skipRadix (hexField n v ++ rest) = some (hexField n v ++ rest) := by
  have size := hexField_length n v
  have digits := hexField_hexText n v
  generalize hexField n v = text at size digits
  obtain _ | ⟨c, _ | ⟨x, text⟩⟩ := text
  · exact absurd size (by simp; omega)
  · exact absurd size (by simp; omega)
  · exact skipRadix_digits (digits x (by simp))

theorem simpleStrtoul_hexField {n v : ℕ} (wide : 2 ≤ n) (narrow : n ≤ 16) (small : v < 16 ^ n) {c : Byte}
    (other : hexVal c = none) (rest : List Byte) :
    simpleStrtoul (hexField n v ++ c :: rest) = some (v, c :: rest) := by
  have fits : v < 2 ^ 64 := small.trans_le (Nat.pow_le_pow_right (by decide) narrow)
  rw [simpleStrtoul, skipRadix_hexField wide, bind_eq_bind, bind_some, scanHex_hexField,
    Nat.mul_zero, Nat.zero_add, Nat.mod_eq_of_lt small, scanHex_stop other]
  exact congrArg (fun x => some (x, c :: rest)) (Nat.mod_eq_of_lt fits)

theorem digit_notSpace {c : Byte} (digit : hexVal c ≠ none) : isspace c = false := by
  have all : ∀ n ∈ List.range 256, hexVal (BitVec.ofNat 8 n) ≠ none →
      isspace (BitVec.ofNat 8 n) = false := by decide +kernel
  have this := all c.toNat (List.mem_range.mpr c.isLt)
  rw [BitVec.ofNat_toNat, BitVec.setWidth_eq] at this
  exact this digit

theorem skipSpaces_hexField {n : ℕ} (some' : 0 < n) (v : ℕ) (rest : List Byte) :
    skipSpaces (hexField n v ++ rest) = some (hexField n v ++ rest) ∧
      (hexField n v ++ rest).head?.bind hexVal ≠ none := by
  have size := hexField_length n v
  have digits := hexField_hexText n v
  generalize hexField n v = text at size digits
  obtain _ | ⟨c, text⟩ := text
  · exact absurd size (by simp; omega)
  · have digit := digits c mem_cons_self
    refine ⟨?_, digit⟩
    rw [cons_append, skipSpaces, digit_notSpace digit]
    rfl

/-- One conversion of `sscanf`. -/
theorem scanOctets_hexField (n : ℕ) (b : Byte) {c : Byte} (other : hexVal c = none) (rest : List Byte) :
    scanOctets (n + 1) (hexField 2 b.toNat ++ c :: rest) = if n = 0 then some [b]
      else if c = colon then (scanOctets n rest).map (b :: ·) else some [b] := by
  obtain ⟨skipped, digit⟩ := skipSpaces_hexField (by decide : 0 < 2) b.toNat (c :: rest)
  have converted := simpleStrtoul_hexField (Nat.le_refl 2) (by decide) b.isLt other rest
  rw [scanOctets, skipped, bind_some, if_neg digit, converted, bind_some]
  dsimp only
  rw [BitVec.ofNat_toNat, BitVec.setWidth_eq]

theorem scanOctets_octetText (octets : List Byte) {c : Byte} (other : hexVal c = none) (rest : List Byte) :
    scanOctets octets.length (octetText octets ++ c :: rest) = some octets := by
  induction octets with
  | nil => rfl
  | cons b octets ih =>
    cases octets with
    | nil => exact scanOctets_hexField 0 b other rest
    | cons b' octets =>
      rw [octetText, append_assoc, cons_append, length_cons,
        scanOctets_hexField _ b (by decide), if_neg (by simp), if_pos rfl, ih, map_some]
      simp

theorem storeOctets_toList (mac mac' : Mac) : storeOctets mac mac'.toList = mac' := by
  refine Vector.ext fun i inside => ?_
  rw [storeOctets, Vector.getElem_ofFn, Vector.getElem?_toList, Vector.getElem?_eq_getElem inside, Option.getD_some]

/-! ### What the file holds -/

theorem valueOf_line {line : List Byte} (plain : newline ∉ line) (tagName : List Byte) (tagLen : ℕ)
    (rest : List Byte) : valueOf tagName tagLen (line ++ newline :: rest) =
      if Entry tagName tagLen line then some (line.drop tagName.length)
      else valueOf tagName tagLen rest := by
  rw [valueOf, lines_cons plain, List.find?_cons]
  by_cases entry : Entry tagName tagLen line
  · rw [decide_eq_true entry, if_pos entry]
    rfl
  · rw [decide_eq_false entry, if_neg entry]
    rfl

theorem valueOf_other {tagName tagName' tagValue : List Byte} {tagLen : ℕ}
    (plain : Plain (tagName' ++ equalSign :: tagValue))
    (other : ¬ Entry tagName tagLen (tagName' ++ equalSign :: tagValue)) (stack rest : List Byte) :
    valueOf tagName tagLen (storedLine stack tagName' tagValue ++ rest) = valueOf tagName tagLen rest := by
  rw [storedLine]
  split
  · rw [tagLine, append_assoc _ [newline], List.singleton_append, valueOf_line plain.1, if_neg other]
  · rw [nil_append]

theorem valueOf_own {tagName tagValue : List Byte} (plain : Plain (tagName ++ equalSign :: tagValue))
    (stack rest : List Byte) :
    valueOf (tagName ++ [equalSign]) tagValue.length (storedLine stack tagName tagValue ++ rest) =
      if Fits stack (tagName.length + tagValue.length + 2) then some tagValue
      else valueOf (tagName ++ [equalSign]) tagValue.length rest := by
  have line : tagName ++ equalSign :: tagValue = tagName ++ [equalSign] ++ tagValue :=
    append_cons tagName equalSign tagValue
  have own : Entry (tagName ++ [equalSign]) tagValue.length (tagName ++ equalSign :: tagValue) :=
    ⟨tagValue, line, rfl⟩
  rw [storedLine]
  split
  · rw [tagLine, append_assoc _ [newline], List.singleton_append, valueOf_line plain.1, if_pos own,
      line, List.drop_left]
  · rw [nil_append]

/-- The text of the file that `storeCfg` makes. -/
def storedText (frames : Frames) (cfg : AmlCfg) : List Byte :=
  storedLine frames.chipId chipIdTag (chipidStr cfg) ++ (storedLine frames.vif0 vif0MacaddrTag (macStr cfg.vif0Mac) ++
      (storedLine frames.vif1 vif1MacaddrTag (macStr cfg.vif1Mac) ++ []))

theorem storeCfg_data (more : ℕ → ℕ) (frames : Frames) (cfg : AmlCfg) :
    (storeCfg more frames cfg ⟨[], 0⟩).data = storedText frames cfg := by
  have chip : chipIdTag.length + (chipidStr cfg).length ≤ AML_CFG_LBUF_MAXLEN := by
    rw [chipidStr_length]
    decide
  have vif0 : vif0MacaddrTag.length + (macStr cfg.vif0Mac).length ≤ AML_CFG_LBUF_MAXLEN := by
    rw [macStr_length]
    decide
  have vif1 : vif1MacaddrTag.length + (macStr cfg.vif1Mac).length ≤ AML_CFG_LBUF_MAXLEN := by
    rw [macStr_length]
    decide
  have first := amlCfgStoreTag_end more frames.chipId [] chipIdTag (chipidStr cfg) chip
  rw [List.length_nil] at first
  rw [storeCfg, amlCfgStoreMacaddr, amlCfgStoreChipid, first, amlCfgStoreTag_end more _ _ _ _ vif0,
    amlCfgStoreTag_end more _ _ _ _ vif1, storedText]
  simp only [nil_append, append_nil, append_assoc]

section Stored

variable (frames : Frames) (cfg : AmlCfg)

theorem plain_chipid : Plain (chipIdTag ++ equalSign :: chipidStr cfg) := by
  have front : Plain (chipIdTag ++ [equalSign]) := ⟨by decide, by decide⟩
  rw [append_cons]
  exact front.append ((plain_hexField _ _).append (plain_hexField _ _))

theorem plain_vif0 (mac : Mac) : Plain (vif0MacaddrTag ++ equalSign :: macStr mac) := by
  have front : Plain (vif0MacaddrTag ++ [equalSign]) := ⟨by decide, by decide⟩
  rw [append_cons]
  exact front.append (plain_octetText _)

theorem plain_vif1 (mac : Mac) : Plain (vif1MacaddrTag ++ equalSign :: macStr mac) := by
  have front : Plain (vif1MacaddrTag ++ [equalSign]) := ⟨by decide, by decide⟩
  rw [append_cons]
  exact front.append (plain_octetText _)

theorem entry_otherMac {tagName tagName' : List Byte} (size : tagName.length = tagName'.length)
    (other : tagName ≠ tagName') (tagLen : ℕ) (tagValue : List Byte) :
    ¬ Entry (tagName ++ [equalSign]) tagLen (tagName' ++ equalSign :: tagValue) := by
  rintro ⟨value, same, -⟩
  rw [append_assoc] at same
  exact other (List.append_inj_left same size.symm).symm

theorem valueOf_chipId : valueOf (chipIdTag ++ [equalSign]) AML_EFUSE_CHIPID_LEN (storedText frames cfg) =
    if Fits frames.chipId 21 then some (chipidStr cfg) else none := by
  have not0 : ¬ Entry (chipIdTag ++ [equalSign]) AML_EFUSE_CHIPID_LEN
      (vif0MacaddrTag ++ equalSign :: macStr cfg.vif0Mac) :=
    entry_of_length (by rw [length_append, length_cons, macStr_length]; decide)
  have not1 : ¬ Entry (chipIdTag ++ [equalSign]) AML_EFUSE_CHIPID_LEN
      (vif1MacaddrTag ++ equalSign :: macStr cfg.vif1Mac) :=
    entry_of_length (by rw [length_append, length_cons, macStr_length]; decide)
  have own := valueOf_own (plain_chipid cfg) frames.chipId
  rw [chipidStr_length] at own
  rw [storedText, own, valueOf_other (plain_vif0 cfg.vif0Mac) not0, valueOf_other (plain_vif1 cfg.vif1Mac) not1]
  rfl

theorem valueOf_vif0 : valueOf (vif0MacaddrTag ++ [equalSign]) 17 (storedText frames cfg) =
    if Fits frames.vif0 31 then some (macStr cfg.vif0Mac) else none := by
  have notChip : ¬ Entry (vif0MacaddrTag ++ [equalSign]) 17 (chipIdTag ++ equalSign :: chipidStr cfg) :=
    entry_of_length (by rw [length_append, length_cons, chipidStr_length]; decide)
  have not1 : ¬ Entry (vif0MacaddrTag ++ [equalSign]) 17 (vif1MacaddrTag ++ equalSign :: macStr cfg.vif1Mac) :=
    entry_otherMac (by decide) (by decide) 17 _
  have own := valueOf_own (plain_vif0 cfg.vif0Mac) frames.vif0
  rw [macStr_length] at own
  rw [storedText, valueOf_other (plain_chipid cfg) notChip, own, valueOf_other (plain_vif1 cfg.vif1Mac) not1]
  rfl

theorem valueOf_vif1 : valueOf (vif1MacaddrTag ++ [equalSign]) 17 (storedText frames cfg) =
    if Fits frames.vif1 31 then some (macStr cfg.vif1Mac) else none := by
  have notChip : ¬ Entry (vif1MacaddrTag ++ [equalSign]) 17 (chipIdTag ++ equalSign :: chipidStr cfg) :=
    entry_of_length (by rw [length_append, length_cons, chipidStr_length]; decide)
  have not0 : ¬ Entry (vif1MacaddrTag ++ [equalSign]) 17 (vif0MacaddrTag ++ equalSign :: macStr cfg.vif0Mac) :=
    entry_otherMac (by decide) (by decide) 17 _
  have own := valueOf_own (plain_vif1 cfg.vif1Mac) frames.vif1
  rw [macStr_length] at own
  rw [storedText, valueOf_other (plain_chipid cfg) notChip, valueOf_other (plain_vif0 cfg.vif0Mac) not0, own]
  rfl

theorem plain_storedLine {tagName tagValue stack : List Byte}
    (plain : Plain (tagName ++ equalSign :: tagValue)) : 0 ∉ storedLine stack tagName tagValue := by
  rw [storedLine]
  split
  · rw [tagLine]
    intro mem
    rcases mem_append.mp mem with text | last
    · exact plain.2 text
    · exact absurd (List.mem_singleton.mp last) (by decide)
  · exact not_mem_nil

theorem storedText_nul : 0 ∉ storedText frames cfg := by
  intro mem
  rcases mem_append.mp mem with chip | mem
  · exact plain_storedLine (plain_chipid cfg) chip
  rcases mem_append.mp mem with vif0 | mem
  · exact plain_storedLine (plain_vif0 cfg.vif0Mac) vif0
  rw [append_nil] at mem
  exact plain_storedLine (plain_vif1 cfg.vif1Mac) mem

theorem storedLine_length_le (stack tagName tagValue : List Byte) :
    (storedLine stack tagName tagValue).length ≤ tagName.length + tagValue.length + 2 := by
  rw [storedLine]
  split
  · rw [tagLine_length]
  · exact Nat.zero_le _

theorem storedText_length : (storedText frames cfg).length < AML_CFG_FBUF_MAXLEN := by
  have chip := storedLine_length_le frames.chipId chipIdTag (chipidStr cfg)
  have vif0 := storedLine_length_le frames.vif0 vif0MacaddrTag (macStr cfg.vif0Mac)
  have vif1 := storedLine_length_le frames.vif1 vif1MacaddrTag (macStr cfg.vif1Mac)
  have sizes : chipIdTag.length = 7 ∧ vif0MacaddrTag.length = 12 ∧ vif1MacaddrTag.length = 12 := by decide
  rw [chipidStr_length] at chip
  rw [macStr_length] at vif0 vif1
  rw [storedText, append_nil, length_append, length_append]
  unfold AML_CFG_FBUF_MAXLEN
  unfold AML_EFUSE_CHIPID_LEN at chip
  omega

end Stored

/-! ### What is read back -/

theorem untilNul_plain {text : List Byte} (plain : 0 ∉ text) : untilNul text = text := by
  refine List.takeWhile_eq_self_iff.mpr fun c mem => decide_eq_true ?_
  rintro rfl
  exact plain mem

section Read

variable {got : List Byte} (short : got.length < AML_CFG_FBUF_MAXLEN)
include short

theorem readMac_none {tagName : List Byte}
    (absent : valueOf (tagName ++ [equalSign]) 17 (untilNul got) = none) (mac : Mac) :
    readMac (padded got) tagName mac = some mac := by
  rcases findTag_padded short (tagName ++ [equalSign]) 17 with
    ⟨absent', -⟩ | ⟨k, value, c, rest, -, found, -⟩
  · rw [readMac, absent']
    rfl
  · rw [absent] at found
    cases found

theorem readMac_value {tagName : List Byte} {mac' : Mac}
    (value : valueOf (tagName ++ [equalSign]) 17 (untilNul got) = some (macStr mac')) (mac : Mac) :
    readMac (padded got) tagName mac = some mac' := by
  rcases findTag_padded short (tagName ++ [equalSign]) 17 with
    ⟨-, absent⟩ | ⟨k, value', c, rest, found, found', -, memory, stop, -⟩
  · rw [value] at absent
    cases absent
  · obtain rfl := some.inj (value.symm.trans found')
    have other : hexVal c = none := by rcases stop with rfl | rfl <;> rfl
    have scanned := scanOctets_octetText mac'.toList other rest
    rw [Vector.length_toList] at scanned
    rw [readMac, found, bind_eq_bind, bind_some]
    dsimp only
    rw [memory, macStr, scanned, map_some, storeOctets_toList]

theorem readChipid_none {behind : List Byte}
    (absent : valueOf (chipIdTag ++ [equalSign]) AML_EFUSE_CHIPID_LEN (untilNul got) = none)
    (before : AmlCfg) : readChipid (padded got) behind before = some before := by
  rcases findTag_padded short (chipIdTag ++ [equalSign]) AML_EFUSE_CHIPID_LEN with
    ⟨absent', -⟩ | ⟨k, value, c, rest, -, found, -⟩
  · rw [readChipid, absent']
    rfl
  · rw [absent] at found
    cases found

theorem readChipid_value {behind : List Byte} {cfg : AmlCfg}
    (value : valueOf (chipIdTag ++ [equalSign]) AML_EFUSE_CHIPID_LEN (untilNul got) = some (chipidStr cfg))
    (before : AmlCfg) : readChipid (padded got) behind before =
      (simpleStrtoul (hexField 4 (cfg.chipidH.toNat % 2 ^ 16) ++ behind)).map fun high =>
        { before with chipidL := cfg.chipidL, chipidH := BitVec.ofNat 32 high.1 } := by
  rcases findTag_padded short (chipIdTag ++ [equalSign]) AML_EFUSE_CHIPID_LEN with
    ⟨-, absent⟩ | ⟨k, value', c, rest, found, found', -, memory, stop, -⟩
  · rw [value] at absent
    cases absent
  · obtain rfl := some.inj (value.symm.trans found')
    have other : hexVal c = none := by rcases stop with rfl | rfl <;> rfl
    have high : ((padded got).drop k).take 4 = hexField 4 (cfg.chipidH.toNat % 2 ^ 16) := by
      rw [memory, chipidStr, append_assoc, List.take_left' (hexField_length 4 _)]
    have low : (padded got).drop (k + 4) = hexField 8 cfg.chipidL.toNat ++ c :: rest := by
      rw [← drop_drop, memory, chipidStr, append_assoc, List.drop_left' (hexField_length 4 _)]
    have converted := simpleStrtoul_hexField (by decide) (by decide) cfg.chipidL.isLt other rest (n := 8)
    rw [readChipid, found, bind_eq_bind, bind_some]
    dsimp only
    rw [low, high, converted, bind_eq_bind, bind_some]
    dsimp only
    rw [BitVec.ofNat_toNat, BitVec.setWidth_eq]
    cases simpleStrtoul (hexField 4 (cfg.chipidH.toNat % 2 ^ 16) ++ behind) <;> rfl

end Read

theorem harmless_iff {behind : List Byte} {chipidH : ℕ} : Harmless behind chipidH ↔
    ∃ high, simpleStrtoul (hexField 4 (chipidH % 2 ^ 16) ++ behind) = some high ∧
      (BitVec.ofNat 32 high.1).toNat % 2 ^ 16 = chipidH % 2 ^ 16 := by
  have low : chipidH % 2 ^ 16 % 16 ^ 4 = chipidH % 2 ^ 16 := Nat.mod_eq_of_lt (Nat.mod_lt _ (by decide))
  have scan : scanHex 0 (hexField 4 (chipidH % 2 ^ 16) ++ behind) = scanHex (chipidH % 2 ^ 16) behind := by
    rw [scanHex_hexField, Nat.mul_zero, Nat.zero_add, low]
  rw [simpleStrtoul, skipRadix_hexField (by decide), bind_eq_bind, bind_some, scan]
  rcases scanHex_cases (chipidH % 2 ^ 16) behind with
    ⟨digits, run⟩ | ⟨front, c, rest, rfl, digits, other, scanned⟩
  · have stray : strayDigits behind = behind := by
      refine List.takeWhile_eq_self_iff.mpr fun c mem => ?_
      exact Option.isSome_iff_ne_none.mpr (digits c mem)
    rw [run]
    exact iff_of_false (fun harmless => harmless.1 stray) fun ⟨_, no, _⟩ => nomatch no
  · have stray : strayDigits (front ++ c :: rest) = front := by
      rw [strayDigits, List.takeWhile_append_of_pos fun x mem => Option.isSome_iff_ne_none.mpr (digits x mem),
        List.takeWhile_cons_of_neg (by rw [other]; decide), append_nil]
    have word : ∀ v : ℕ, (BitVec.ofNat 32 (v % 2 ^ 64)).toNat % 2 ^ 16 = v % 2 ^ 16 := by
      intro v
      rw [BitVec.toNat_ofNat, Nat.mod_mod_of_dvd _ (by decide), Nat.mod_mod_of_dvd _ (by decide)]
    rw [scanned, Harmless, stray]
    constructor
    · rintro ⟨-, same⟩
      exact ⟨_, rfl, (word _).trans same⟩
    · rintro ⟨_, ⟨⟩, same⟩
      exact ⟨fun whole => by simpa using congrArg List.length whole, (word _).symm.trans same⟩

/-! ### The results -/

/-- `aml_cfg_from_file` on a file that is short enough. -/
theorem amlCfgFromFile_short (more : ℕ → ℕ) (behind : List Byte) (cfg : AmlCfg) {fp : CfgFile} {got : List Byte}
    (left : fp.data.drop fp.fPos = got) (short : got.length < AML_CFG_FBUF_MAXLEN) :
    amlCfgFromFile more behind cfg fp = (readChipid (padded got) behind cfg).bind fun cfg =>
      (readMac (padded got) vif0MacaddrTag cfg.vif0Mac).bind fun vif0Mac =>
        (readMac (padded got) vif1MacaddrTag cfg.vif1Mac).bind fun vif1Mac =>
          some { cfg with vif0Mac := vif0Mac, vif1Mac := vif1Mac } := by
  have read : (amlCfgRead more fp AML_CFG_FBUF_MAXLEN).1 = got := by
    rw [amlCfgRead_eq, left]
    exact take_of_length_le short.le
  rw [amlCfgFromFile, read]
  exact if_neg (Nat.not_le.mpr short)

theorem readsInside_iff (more : ℕ → ℕ) (cfg : AmlCfg) (fp : CfgFile) : ReadsInside more cfg fp ↔
    AML_CFG_FBUF_MAXLEN ≤ (fp.data.drop fp.fPos).length ∨
      ∀ value, valueOf (chipIdTag ++ [equalSign]) AML_EFUSE_CHIPID_LEN (untilNul (fp.data.drop fp.fPos)) =
        some value → Ends (value.take 4) := by
  by_cases short : (fp.data.drop fp.fPos).length < AML_CFG_FBUF_MAXLEN
  · rw [or_iff_right (Nat.not_le.mpr short), ← readChipid_isSome short cfg, ReadsInside,
      amlCfgFromFile_short more [] cfg rfl short]
    constructor
    · intro inside
      obtain ⟨after, ran⟩ := isSome_iff_exists.mp inside
      obtain ⟨cfg', chip, -⟩ := bind_eq_some_iff.mp ran
      rw [chip]
      rfl
    · intro inside
      obtain ⟨cfg', chip⟩ := isSome_iff_exists.mp inside
      obtain ⟨vif0, read0⟩ := readMac_some short vif0MacaddrTag cfg'.vif0Mac
      obtain ⟨vif1, read1⟩ := readMac_some short vif1MacaddrTag cfg'.vif1Mac
      rw [chip, bind_some, read0, bind_some, read1]
      rfl
  · have long := Nat.not_lt.mp short
    refine iff_of_true ?_ (.inl long)
    have got : AML_CFG_FBUF_MAXLEN ≤ (amlCfgRead more fp AML_CFG_FBUF_MAXLEN).1.length := by
      rw [amlCfgRead_eq]
      dsimp only
      rw [List.length_take_of_le long]
    rw [ReadsInside, amlCfgFromFile, if_pos got]
    rfl

theorem fromFile_stored (more : ℕ → ℕ) (frames : Frames) (behind : List Byte) (cfg before : AmlCfg) :
    amlCfgFromFile more behind before { storeCfg more frames cfg ⟨[], 0⟩ with fPos := 0 } =
      (if Fits frames.chipId 21 then
        (simpleStrtoul (hexField 4 (cfg.chipidH.toNat % 2 ^ 16) ++ behind)).map fun high =>
          { before with chipidL := cfg.chipidL, chipidH := BitVec.ofNat 32 high.1 }
      else some before).bind fun chip => some
        { chip with
          vif0Mac := if Fits frames.vif0 31 then cfg.vif0Mac else before.vif0Mac
          vif1Mac := if Fits frames.vif1 31 then cfg.vif1Mac else before.vif1Mac } := by
  have text := untilNul_plain (storedText_nul frames cfg)
  have short := storedText_length frames cfg
  have vif0 : ∀ mac, readMac (padded (storedText frames cfg)) vif0MacaddrTag mac =
      some (if Fits frames.vif0 31 then cfg.vif0Mac else mac) := by
    intro mac
    have value := valueOf_vif0 frames cfg
    split at value
    · next fits =>
      rw [if_pos fits]
      exact readMac_value short (by rw [text, value]) mac
    · next full =>
      rw [if_neg full]
      exact readMac_none short (by rw [text, value]) mac
  have vif1 : ∀ mac, readMac (padded (storedText frames cfg)) vif1MacaddrTag mac =
      some (if Fits frames.vif1 31 then cfg.vif1Mac else mac) := by
    intro mac
    have value := valueOf_vif1 frames cfg
    split at value
    · next fits =>
      rw [if_pos fits]
      exact readMac_value short (by rw [text, value]) mac
    · next full =>
      rw [if_neg full]
      exact readMac_none short (by rw [text, value]) mac
  have left : ((storeCfg more frames cfg ⟨[], 0⟩).data).drop 0 = storedText frames cfg := by
    rw [List.drop_zero, storeCfg_data]
  rw [amlCfgFromFile_short more behind before left short]
  have value := valueOf_chipId frames cfg
  split at value
  · next fits =>
    rw [if_pos fits, readChipid_value short (by rw [text, value]) before]
    generalize simpleStrtoul (hexField 4 (cfg.chipidH.toNat % 2 ^ 16) ++ behind) = conversion
    cases conversion with
    | none => simp only [Option.map_none, Option.bind_none]
    | some high => simp only [map_some, bind_some, vif0, vif1]
  · next full =>
    rw [if_neg full, readChipid_none short (by rw [text, value]) before]
    simp only [bind_some, vif0, vif1]

theorem exists_otherMac (mac : Mac) : ∃ other : Mac, other ≠ mac := by
  refine ⟨mac.set 0 (mac[0] + 1), fun same => ?_⟩
  have first := congrArg (fun m : Mac => m[0]) same
  rw [Vector.getElem_set_self] at first
  simp at first

/-- **The round trip restores everything** just when the three lines were stored and the stack is harmless. -/
theorem restores_iff (more : ℕ → ℕ) (frames : Frames) (behind : List Byte) (cfg : AmlCfg) :
    Restores more behind cfg (storeCfg more frames cfg ⟨[], 0⟩) ↔ Survives frames behind cfg := by
  rw [Survives, harmless_iff]
  constructor
  · intro restores
    obtain ⟨mac0, other0⟩ := exists_otherMac cfg.vif0Mac
    obtain ⟨mac1, other1⟩ := exists_otherMac cfg.vif1Mac
    obtain ⟨after, ran, low, high, vif0, vif1⟩ := restores ⟨cfg.chipidL + 1, 0, mac0, mac1⟩
    rw [fromFile_stored] at ran
    obtain ⟨chip, chipRan, same⟩ := bind_eq_some_iff.mp ran
    obtain rfl := some.inj same
    have fits : Fits frames.chipId 21 := by
      by_contra full
      rw [if_neg full] at chipRan
      obtain rfl := some.inj chipRan
      simp at low
    rw [if_pos fits] at chipRan
    obtain ⟨word, converted, rfl⟩ := Option.map_eq_some_iff.mp chipRan
    refine ⟨fits, ?_, ?_, word, converted, high⟩
    · by_contra full
      exact other0 (by simpa [full] using vif0)
    · by_contra full
      exact other1 (by simpa [full] using vif1)
  · rintro ⟨chip, fits0, fits1, high, converted, same⟩ before
    refine ⟨{ cfg with chipidH := BitVec.ofNat 32 high.1 }, ?_, rfl, same, rfl, rfl⟩
    rw [fromFile_stored, if_pos chip, converted, if_pos fits0, if_pos fits1]
    rfl

theorem storesInside_iff (more : ℕ → ℕ) (stack : List Byte) (fp : CfgFile) (tagName tagValue : List Byte) :
    StoresInside more stack fp tagName tagValue ↔ AML_CFG_LBUF_MAXLEN < tagName.length + tagValue.length ∨
        (tagName.length + tagValue.length + 3 ≤ AML_CFG_LBUF_MAXLEN ∧
          strlen (fileBuffer more stack fp) < AML_CFG_FBUF_MAXLEN) := by
  unfold StoresInside amlCfgStoreTag
  by_cases refused : AML_CFG_LBUF_MAXLEN < tagName.length + tagValue.length
  · rw [if_pos refused]
    exact iff_of_true ⟨Nat.zero_le _, Nat.zero_le _⟩ (.inl refused)
  · rw [if_neg refused, or_iff_right refused]
    dsimp only
    rw [tagLine_length]
    unfold AML_CFG_LBUF_MAXLEN at refused
    split <;> dsimp only <;> unfold AML_CFG_LBUF_MAXLEN AML_CFG_FBUF_MAXLEN <;> omega

theorem findTag_iff (fileData tagName : List Byte) (tagLen : ℕ) :
    ∃ found, amlCfgFindTag fileData fileData.length tagName tagLen = some found ∧
      (found.isSome = true ↔ ∃ line ∈ lines fileData, Entry tagName tagLen line) ∧
      ∀ k ∈ found, valueOf tagName tagLen fileData = some ((fileData.drop k).take tagLen) := by
  have some_iff : (valueOf tagName tagLen fileData).isSome = true ↔
      ∃ line ∈ lines fileData, Entry tagName tagLen line := by
    rw [valueOf, Option.isSome_map, List.find?_isSome]
    simp only [decide_eq_true_eq]
  refine ⟨_, amlCfgFindTag_eq (Nat.le_refl _), ?_⟩
  rw [List.take_length, ← some_iff]
  rcases position_spec tagName tagLen 0 fileData with
    ⟨absent, absent'⟩ | ⟨k, value, tail, found, found', length, rest, -⟩
  · rw [absent, absent']
    exact ⟨Iff.rfl, fun _ no => absurd no (Option.not_mem_none _)⟩
  · rw [found, found']
    refine ⟨Iff.rfl, ?_⟩
    rintro _ ⟨⟩
    rw [Nat.zero_add, rest, List.take_left' length]

/-- **The configuration file is right** just under these conditions: the round trip, for any values and for those that
`aml_cfg_to_file` finds; the reads of any file; the search; the buffers. -/
theorem cfg_file_right (more : ℕ → ℕ) (frames : Frames) (behind stack fileData tagName tagValue : List Byte)
    (tagLen : ℕ) (cfg : AmlCfg) (efuse : ℕ → BitVec 32) (random : Mac) (fp : CfgFile) :
    (Restores more behind cfg (storeCfg more frames cfg ⟨[], 0⟩) ↔ Survives frames behind cfg) ∧
    (Restores more behind (amlCfgToFile more frames efuse random).1 (amlCfgToFile more frames efuse random).2 ↔
        Survives frames behind (fillCfg efuse random)) ∧
    (ReadsInside more cfg fp ↔ AML_CFG_FBUF_MAXLEN ≤ (fp.data.drop fp.fPos).length ∨
        ∀ value, valueOf (chipIdTag ++ [equalSign]) AML_EFUSE_CHIPID_LEN (untilNul (fp.data.drop fp.fPos)) =
          some value → Ends (value.take 4)) ∧
    (∃ found, amlCfgFindTag fileData fileData.length tagName tagLen = some found ∧
      (found.isSome = true ↔ ∃ line ∈ lines fileData, Entry tagName tagLen line) ∧
      ∀ k ∈ found, valueOf tagName tagLen fileData = some ((fileData.drop k).take tagLen)) ∧
    (StoresInside more stack fp tagName tagValue ↔ AML_CFG_LBUF_MAXLEN < tagName.length + tagValue.length ∨
        (tagName.length + tagValue.length + 3 ≤ AML_CFG_LBUF_MAXLEN ∧
          strlen (fileBuffer more stack fp) < AML_CFG_FBUF_MAXLEN)) :=
  ⟨restores_iff more frames behind cfg, restores_iff more frames behind _, readsInside_iff more cfg fp,
    findTag_iff fileData tagName tagLen, storesInside_iff more stack fp tagName tagValue⟩

/-- A chip id, and a digit behind it on the stack. -/
def straySample : AmlCfg := ⟨0x9abcdef0, 0x1234, #v[0, 1, 2, 3, 4, 5], #v[2, 1, 2, 3, 4, 5]⟩

/-- Each part fails: a digit on the stack, any file that was written, and a line of 66 bytes. -/
theorem cfg_file_broken : (¬ ∀ more frames behind cfg, Restores more behind cfg (storeCfg more frames cfg ⟨[], 0⟩)) ∧
    (¬ ∀ more cfg fp, ReadsInside more cfg fp) ∧
    ¬ ∀ more stack fp tagName tagValue, StoresInside more stack fp tagName tagValue := by
  refine ⟨fun all => ?_, fun all => ?_, fun all => ?_⟩
  · have harmless := ((restores_iff _ _ _ _).mp
      (all (fun _ => 1023) ⟨[0], [0], [0]⟩ [0x31, 0] straySample)).2.2.2
    exact absurd harmless.2 (by decide)
  · exact absurd (all (fun _ => 1023) straySample
      ⟨chipIdTag ++ [equalSign] ++ chipidStr straySample ++ [newline], 0⟩)
      (by unfold ReadsInside; decide +kernel)
  · rcases (storesInside_iff _ _ _ _ _).mp (all (fun _ => 1023) [0] ⟨[], 0⟩ chipIdTag (List.replicate 57 0x61)) with
      refused | ⟨fits, -⟩
    · exact absurd refused (by decide)
    · exact absurd fits (by decide)

end W2l.Cfg
