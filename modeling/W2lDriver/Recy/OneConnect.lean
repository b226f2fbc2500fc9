/-
**The saved association is one connection.**

* `Rooms` — the buffers are as large as they are taken for.
* `savedFrom_steps` — a complete call that has its memory is the record.
* `SavingInv` — what holds in every run, `saved_oneConnect` — **the run lemma**.
-/

import W2lDriver.Recy.SavedAssoc
import W2lDriver.Conn.Sizing

namespace W2l.SavedAssoc

open Lib Connect
open Option (isSome_iff_exists some.inj some_ne_none)

/-! ### Buffers -/

theorem overwrite_length (buf bytes : List Byte) : (overwrite buf bytes).length = buf.length := by
  unfold overwrite
  rw [List.length_append, List.length_take, List.length_drop]
  omega

theorem overwrite_take {buf bytes : List Byte} (room : bytes.length ≤ buf.length) :
    (overwrite buf bytes).take bytes.length = bytes := by
  unfold overwrite
  rw [List.take_of_length_le room, List.take_left]

/-- The buffers are as large as they are taken for. -/
structure Rooms (info : AssocInfo) : Prop where
  key : ∀ buf, info.keyBuf = some buf → 1 ≤ buf.length
  ies : ∀ buf, info.iesBuf = some buf → info.iesLen ≤ buf.length

namespace Call

variable {c : Call} {info : AssocInfo}

/-! ### The parts of a call -/

theorem saveChan_spec : ((c.sme.channel.isSome = true → info.chan.isSome = true ∨ c.chanOk = true) →
      c.saveChan info = .ok { info with chan := c.sme.channel.or info.chan }) ∧
    (¬(c.sme.channel.isSome = true → info.chan.isSome = true ∨ c.chanOk = true) → c.saveChan info = .error info) := by
  unfold saveChan
  cases c.sme.channel with
  | none => exact ⟨fun _ => rfl, fun needed => absurd (fun absent => nomatch absent) needed⟩
  | some channel =>
    refine ⟨fun has => ?_, fun missing => ?_⟩
    · dsimp only
      rw [if_pos (by rw [Bool.or_eq_true]; exact has rfl)]
      rfl
    · dsimp only
      rw [if_neg (by rw [Bool.or_eq_true]; exact fun has => missing fun _ => has)]

/-- What `key_buf` is behind a save. -/
structure KeyStored (c : Call) (old new : Option (List Byte)) : Prop where
  stored : ∀ key, c.sme.key = some key → c.sme.keyLen ≠ 0 →
    ∃ buf, new = some buf ∧ buf.take c.sme.keyLen = key ∧ c.sme.keyLen ≤ buf.length
  room : (∀ buf, old = some buf → 1 ≤ buf.length) → ∀ buf, new = some buf → 1 ≤ buf.length

theorem saveKey_spec (room : ∀ buf, info.keyBuf = some buf → 1 ≤ buf.length) :
    ((c.sme.key.isSome = true → c.sme.keyLen ≠ 0 → c.sme.keyLen = 1 ∧ info.keyBuf.isSome = true ∨ c.keyOk = true) →
      ∃ buf, c.saveKey info = .ok { info with keyBuf := buf } ∧ c.KeyStored info.keyBuf buf) ∧
    (¬(c.sme.key.isSome = true → c.sme.keyLen ≠ 0 → c.sme.keyLen = 1 ∧ info.keyBuf.isSome = true ∨ c.keyOk = true) →
      c.saveKey info = .error { info with keyBuf := none }) := by
  have whole := c.keyWhole
  unfold saveKey
  cases given : c.sme.key with
  | none =>
    refine ⟨fun _ => ⟨info.keyBuf, rfl, fun key here => ?_, fun room => room⟩, fun needed => ?_⟩
    · rw [given] at here
      exact absurd here.symm (some_ne_none key)
    · exact absurd (fun absent => nomatch absent) needed
  | some key =>
    have length := whole key given
    dsimp only
    by_cases empty : c.sme.keyLen = 0
    · rw [if_pos empty]
      exact ⟨fun _ => ⟨info.keyBuf, rfl, fun _ _ filled => absurd empty filled, fun room => room⟩,
        fun needed => absurd (fun _ filled => absurd empty filled) needed⟩
    · rw [if_neg empty]
      have fresh : c.KeyStored info.keyBuf (some key) := by
        refine ⟨fun other here _ => ?_, fun _ buf here => ?_⟩
        · obtain rfl := some.inj (given.symm.trans here)
          exact ⟨key, rfl, by rw [← length, List.take_length], length.ge⟩
        · obtain rfl := some.inj here
          omega
      by_cases reuse : c.sme.keyLen = 1 ∧ info.keyBuf.isSome = true
      · obtain ⟨buf, old⟩ := isSome_iff_exists.mp reuse.2
        have large : key.length ≤ buf.length := (length.trans reuse.1).trans_le (room buf old)
        rw [if_pos reuse.1, old]
        refine ⟨fun _ => ⟨_, rfl, fun other here _ => ?_, fun _ new here => ?_⟩,
          fun needed => absurd (fun _ _ => .inl ⟨reuse.1, rfl⟩) needed⟩
        · obtain rfl := some.inj (given.symm.trans here)
          exact ⟨_, rfl, by rw [← length, overwrite_take large], by rw [overwrite_length, ← length]; exact large⟩
        · obtain rfl := some.inj here
          rw [overwrite_length]
          exact room buf old
      · have none : (if c.sme.keyLen = 1 then info.keyBuf else Option.none) = Option.none := by
          split
          case isFalse => rfl
          case isTrue one =>
            rw [← Option.not_isSome_iff_eq_none]
            exact fun here => reuse ⟨one, here⟩
        rw [none]
        dsimp only
        cases c.keyOk with
        | true => exact ⟨fun _ => ⟨_, rfl, fresh⟩, fun needed => absurd (fun _ _ => .inr rfl) needed⟩
        | false =>
          refine ⟨fun has => ?_, fun _ => rfl⟩
          rcases has rfl empty with old | ok
          · exact absurd old reuse
          · exact absurd ok Bool.false_ne_true

theorem saveIes_spec (room : ∀ buf, info.iesBuf = some buf → info.iesLen ≤ buf.length) :
    (c.ies.length ≤ info.iesLen ∧ info.iesBuf.isSome = true ∨ c.iesOk = true →
      ∃ buf, c.saveIes info = .ok { info with iesBuf := some buf, iesLen := c.ies.length } ∧
        buf.take c.ies.length = c.ies ∧ c.ies.length ≤ buf.length) ∧
    (¬(c.ies.length ≤ info.iesLen ∧ info.iesBuf.isSome = true ∨ c.iesOk = true) →
      c.saveIes info = .error { info with iesBuf := none }) := by
  unfold saveIes
  by_cases reuse : c.ies.length ≤ info.iesLen ∧ info.iesBuf.isSome = true
  · obtain ⟨buf, old⟩ := isSome_iff_exists.mp reuse.2
    have large : c.ies.length ≤ buf.length := reuse.1.trans (room buf old)
    rw [if_neg (Nat.not_lt.mpr reuse.1), old]
    refine ⟨fun _ => ⟨_, rfl, overwrite_take large, ?_⟩, fun missing => absurd (.inl ⟨reuse.1, rfl⟩) missing⟩
    rw [overwrite_length]
    exact large
  · have none : (if info.iesLen < c.ies.length then Option.none else info.iesBuf) = Option.none := by
      split
      case isTrue => rfl
      case isFalse large =>
        rw [← Option.not_isSome_iff_eq_none]
        exact fun here => reuse ⟨Nat.not_lt.mp large, here⟩
    rw [none]
    dsimp only
    cases c.iesOk with
    | true => exact ⟨fun _ => ⟨c.ies, rfl, List.take_length, le_rfl⟩, fun missing => absurd (.inr rfl) missing⟩
    | false =>
      refine ⟨fun has => ?_, fun _ => rfl⟩
      rcases has with old | ok
      · exact absurd old reuse
      · exact absurd ok Bool.false_ne_true

def record (c : Call) (info : AssocInfo) (keyBuf : Option (List Byte)) (iesBuf : List Byte) : AssocInfo :=
  c.setSaved { c.fields info with
    chan := c.sme.channel.or info.chan, keyBuf, iesBuf := some iesBuf, iesLen := c.ies.length }

theorem steps_ok (rooms : Rooms info) (allocated : c.Allocated info) :
    ∃ keyBuf iesBuf, c.steps info = .ok (c.record info keyBuf iesBuf) ∧ c.KeyStored info.keyBuf keyBuf ∧
      iesBuf.take c.ies.length = c.ies ∧ c.ies.length ≤ iesBuf.length := by
  obtain ⟨chan, key, ies⟩ := allocated
  obtain ⟨keyBuf, savedKey, keyStored⟩ := (@saveKey_spec c
    { c.fields info with chan := c.sme.channel.or info.chan } rooms.key).1 key
  obtain ⟨iesBuf, savedIes, same, room⟩ := (@saveIes_spec c
    { c.fields info with chan := c.sme.channel.or info.chan, keyBuf := keyBuf } rooms.ies).1 ies
  refine ⟨keyBuf, iesBuf, ?_, keyStored, same, room⟩
  unfold steps
  rw [(@saveChan_spec c (c.fields info)).1 chan]
  dsimp only
  rw [show c.saveKey { c.fields info with chan := c.sme.channel.or (c.fields info).chan } = _ from savedKey]
  dsimp only
  rw [savedIes]
  rfl

theorem steps_error (rooms : Rooms info) (missing : ¬c.Allocated info) :
    ∃ r, c.steps info = .error r ∧ r.saved = info.saved ∧ Rooms r := by
  unfold steps
  by_cases chan : c.sme.channel.isSome = true → info.chan.isSome = true ∨ c.chanOk = true
  · rw [(@saveChan_spec c (c.fields info)).1 chan]
    dsimp only
    by_cases key : c.sme.key.isSome = true → c.sme.keyLen ≠ 0 →
        c.sme.keyLen = 1 ∧ info.keyBuf.isSome = true ∨ c.keyOk = true
    · obtain ⟨keyBuf, savedKey, keyStored⟩ := (@saveKey_spec c
        { c.fields info with chan := c.sme.channel.or (c.fields info).chan } rooms.key).1 key
      rw [savedKey]
      dsimp only
      rw [(@saveIes_spec c { c.fields info with chan := c.sme.channel.or (c.fields info).chan, keyBuf := keyBuf }
        rooms.ies).2 fun ies => missing ⟨chan, key, ies⟩]
      exact ⟨_, rfl, rfl, keyStored.room rooms.key, fun _ here => nomatch here⟩
    · rw [(@saveKey_spec c { c.fields info with chan := c.sme.channel.or (c.fields info).chan } rooms.key).2 key]
      exact ⟨_, rfl, rfl, (fun _ here => nomatch here), rooms.ies⟩
  · rw [(@saveChan_spec c (c.fields info)).2 chan]
    exact ⟨_, rfl, rfl, rooms.key, rooms.ies⟩

theorem savedFrom_record (complete : c.Complete) {keyBuf : Option (List Byte)} {iesBuf : List Byte}
    (key : c.KeyStored info.keyBuf keyBuf) (same : iesBuf.take c.ies.length = c.ies)
    (room : c.ies.length ≤ iesBuf.length) : SavedFrom c (c.record info keyBuf iesBuf) where
  bssid := rfl
  prevBssid := by
    obtain ⟨prev, given⟩ := isSome_iff_exists.mp complete.prevBssid
    show c.sme.prevBssid.getD info.prevBssid = c.sme.prevBssid.getD noMac
    rw [given]
    rfl
  chan := by
    obtain ⟨channel, given⟩ := isSome_iff_exists.mp complete.channel
    show c.sme.channel.or info.chan = c.sme.channel
    rw [given]
    rfl
  crypto := rfl
  authType := rfl
  mfp := rfl
  keyIdx := rfl
  keyLen := rfl
  key := by
    intro filled
    obtain ⟨bytes, given⟩ := isSome_iff_exists.mp (complete.key filled)
    obtain ⟨buf, rfl, taken, -⟩ := key.stored bytes given filled
    show some (buf.take c.sme.keyLen) = c.sme.key
    rw [taken, given]
  keyRoom := by
    show c.sme.keyLen ≤ _
    by_cases filled : c.sme.keyLen = 0
    · rw [filled]
      exact Nat.zero_le _
    · obtain ⟨bytes, given⟩ := isSome_iff_exists.mp (complete.key filled)
      obtain ⟨buf, rfl, -, large⟩ := key.stored bytes given filled
      exact large
  ies := by
    show some (iesBuf.take c.ies.length) = _
    rw [same]
    unfold ies ssid
    rw [List.take_of_length_le complete.ssid]
  iesRoom := room
  vifIdx := rfl

end Call

/-! ### The request of a recovery -/

theorem sme_ies {info : AssocInfo} {ssid ie buf : List Byte} (short : ssid.length ≤ 32)
    (ies : buf.take info.iesLen = iesBytes ssid ie) : (info.sme buf).ssid = ssid ∧ (info.sme buf).ie = ie := by
  have length : (BitVec.ofNat 8 ssid.length).toNat = ssid.length := by
    rw [BitVec.toNat_ofNat]
    exact Nat.mod_eq_of_lt (lt_of_le_of_lt short (by decide))
  have split : buf = iesBytes ssid ie ++ buf.drop info.iesLen := by rw [← ies, List.take_append_drop]
  have second : buf.getD 1 0 = BitVec.ofNat 8 ssid.length := by
    rw [split]
    rfl
  unfold AssocInfo.sme
  dsimp only
  rw [second, length, ies]
  constructor
  · rw [split]
    show ((ssid ++ ie) ++ buf.drop info.iesLen).take ssid.length = ssid
    rw [List.append_assoc, List.take_left]
  · rw [Nat.add_comm]
    show (ssid ++ ie).drop ssid.length = ie
    exact List.drop_left

/-- Two connections that ask for the same request, once `update_connect_req` is done. -/
structure SameRequest (a b : ConnectParams) : Prop where
  bssid : a.bssid.getD macAddrBcst = b.bssid.getD macAddrBcst
  prevBssid : a.prevBssid.isSome = b.prevBssid.isSome
  channel : a.channel = b.channel
  ssid : a.ssid = b.ssid
  ie : a.ie = b.ie
  mfp : a.mfp = b.mfp
  crypto : a.crypto = b.crypto
  auth : wlanAuth a = wlanAuth b
  ft : a.authType = .ft ↔ b.authType = .ft

section Request

variable {mod : ModParams} {kzalloc : ℕ → Bool} {vif : StaVif} {a b a' b' : ConnectParams} {n : ℕ}

section

variable (same : SameRequest a b)

include same

theorem connFlags_congr : connFlags vif a = connFlags vif b := by
  have ft : decide (a.authType = .ft) = decide (b.authType = .ft) := decide_eq_decide.mpr same.ft
  unfold connFlags
  rw [same.crypto, same.prevBssid, same.mfp, ft]

theorem copyConnectIes_congr : (copyConnectIes vif a).map Prod.snd = (copyConnectIes vif b).map Prod.snd := by
  have ft : decide (a.authType = .ft) = decide (b.authType = .ft) := decide_eq_decide.mpr same.ft
  unfold copyConnectIes
  rw [ft, same.ie]
  split
  · split <;> rfl
  · rfl

theorem connectEnd_congr : (connectEnd mod vif a).2 = (connectEnd mod vif b).2 := by
  have copied := @copyConnectIes_congr vif a b same
  unfold connectEnd
  rw [same.auth]
  cases wlanAuth b with
  | none => rfl
  | some authType =>
    dsimp only
    cases left : copyConnectIes vif a with
    | none =>
      cases right : copyConnectIes vif b with
      | none => rfl
      | some pair =>
        rw [left, right] at copied
        exact absurd copied.symm (some_ne_none _)
    | some pair =>
      cases right : copyConnectIes vif b with
      | none =>
        rw [left, right] at copied
        exact absurd copied (some_ne_none _)
      | some pair' =>
        rw [left, right] at copied
        have bytes : pair.2 = pair'.2 := some.inj copied
        show ConnectEnd.sent (fillReq mod vif a authType pair.2) = .sent (fillReq mod vif b authType pair'.2)
        unfold fillReq
        rw [connFlags_congr same, bytes, same.ssid, same.bssid, same.channel, same.crypto]

end

theorem outcome_congr (left : updateConnectReq vif a = (n, a')) (right : updateConnectReq vif b = (n, b'))
    (same : SameRequest a' b') :
    (amlSendSmConnectReq mod kzalloc vif a).outcome = (amlSendSmConnectReq mod kzalloc vif b).outcome := by
  unfold amlSendSmConnectReq
  rw [left, right]
  dsimp only
  cases kzalloc (msgLen n) with
  | true => exact connectEnd_congr same
  | false => rfl

theorem overAir_congr (ie : a.ie = b.ie) (auth : a.authType = b.authType) : OverAir vif a ↔ OverAir vif b := by
  constructor
  · rintro ⟨automatic, associated, domain, both⟩
    exact ⟨auth.symm.trans automatic, associated, ie ▸ domain, both⟩
  · rintro ⟨automatic, associated, domain, both⟩
    exact ⟨auth.trans automatic, associated, ie ▸ domain, both⟩

theorem wlanAuth_congr (auth : a.authType = b.authType) (crypto : a.crypto = b.crypto) (keyLen : a.keyLen = b.keyLen) :
    wlanAuth a = wlanAuth b := by
  unfold wlanAuth
  rw [auth, crypto, keyLen]

theorem outcome_same (same : SameRequest a b) (auth : a.authType = b.authType) (keyLen : a.keyLen = b.keyLen) :
    (amlSendSmConnectReq mod kzalloc vif a).outcome = (amlSendSmConnectReq mod kzalloc vif b).outcome := by
  by_cases air : OverAir vif a
  · refine outcome_congr (updateConnectReq_overAir air)
      (updateConnectReq_overAir ((overAir_congr same.ie auth).mp air))
      { same with auth := wlanAuth_congr rfl same.crypto keyLen, ft := Iff.rfl }
  · refine outcome_congr (updateConnectReq_other air) ?_ same
    rw [same.ie]
    exact updateConnectReq_other fun other => air ((overAir_congr same.ie auth).mpr other)

end Request

theorem authBehindKey_of {c : Call} {info : AssocInfo} (whole : SavedFrom c info) :
    authBehindKey info.crypto info.authType info.keyBuf.isSome info.keyLen =
      authBehindKey c.sme.crypto c.sme.authType c.sme.key.isSome c.sme.keyLen := by
  have there : installsKey c.sme.crypto c.sme.authType info.keyBuf.isSome c.sme.keyLen =
      installsKey c.sme.crypto c.sme.authType c.sme.key.isSome c.sme.keyLen := by
    by_cases filled : c.sme.keyLen = 0
    · unfold installsKey
      rw [filled, decide_eq_false (not_not_intro rfl), Bool.and_false, Bool.and_false]
    · rw [← whole.key (by rwa [whole.keyLen]), Option.isSome_map]
  unfold authBehindKey
  rw [whole.crypto, whole.authType, whole.keyLen, there]

/-- **The request of a recovery is that of the call the record is of.** -/
theorem reconnects {c : Call} {info : AssocInfo} (complete : c.Complete) (saved : info.saved = true)
    (whole : SavedFrom c info) : Reconnects c info := by
  intro mod kzalloc vifTable vif₀ vif _ first ndev station this
  rw [complete.vifIndex, first] at this
  obtain rfl := some.inj this
  obtain ⟨buf, buffer⟩ : ∃ buf, info.iesBuf = some buf := by
    cases buffer : info.iesBuf with
    | some buf => exact ⟨buf, rfl⟩
    | none =>
      have ies := whole.ies
      rw [buffer] at ies
      exact absurd ies.symm (some_ne_none _)
  have ies := whole.ies
  rw [buffer] at ies
  obtain ⟨ssid, ie⟩ := sme_ies complete.ssid (some.inj ies)
  obtain ⟨channel, given⟩ := isSome_iff_exists.mp complete.channel
  have issued : amlRecyStaConnect mod kzalloc vifTable info =
      some (amlSendSmConnectReq mod kzalloc vif₀.toStaVif (info.sme buf)) := by
    unfold amlRecyStaConnect
    rw [first]
    dsimp only
    rw [ndev, saved, station, whole.chan, given, buffer, if_neg (by decide), Option.isNone_some,
      if_neg Bool.false_ne_true]
    rfl
  rw [issued]
  refine congrArg some ?_
  have auth : (info.sme buf).authType = authBehindKey c.sme.crypto c.sme.authType c.sme.key.isSome c.sme.keyLen :=
    authBehindKey_of whole
  have keyLen : (info.sme buf).keyLen = c.sme.keyLen := whole.keyLen
  have bssid : (info.sme buf).bssid.getD macAddrBcst = c.sme.bssid.getD macAddrBcst := whole.bssid
  by_cases changes : c.sme.authType = .automatic ∧
      installsKey c.sme.crypto .automatic c.sme.key.isSome c.sme.keyLen = true
  · -- both ask for a shared key, as the first cipher is WEP and there is a key
    obtain ⟨wep, noMde⟩ := complete.auth changes.1 changes.2
    have filled : c.sme.keyLen ≠ 0 := by
      have installs := changes.2
      unfold installsKey at installs
      rw [Bool.and_eq_true, Bool.and_eq_true, decide_eq_true_eq] at installs
      exact installs.1.2
    have shared : (info.sme buf).authType = .sharedKey := by
      rw [auth, changes.1]
      unfold authBehindKey
      rw [changes.2]
      rfl
    have plain : ∀ sme : ConnectParams, sme.ie = c.sme.ie →
        updateConnectReq vif₀.toStaVif sme = (c.sme.ie.length, sme) := by
      intro sme same
      rw [← same]
      refine updateConnectReq_other fun air => ?_
      obtain ⟨mde, requested, -⟩ := air.sameDomain
      rw [same, noMde] at requested
      exact absurd requested.symm (some_ne_none mde)
    refine outcome_congr (plain _ ie) (plain _ rfl)
      ⟨bssid, complete.prevBssid.symm, whole.chan, ssid, ie, whole.mfp, whole.crypto, ?_, ?_⟩
    · unfold wlanAuth
      rw [shared, changes.1, wep, decide_eq_true filled]
      rfl
    · rw [shared, changes.1]
      decide
  · have kept : (info.sme buf).authType = c.sme.authType := by
      rw [auth]
      unfold authBehindKey
      split
      case isFalse => rfl
      case isTrue installs =>
        rw [Bool.and_eq_true, decide_eq_true_eq] at installs
        have automatic := installs.2
        rw [automatic] at installs
        exact absurd ⟨automatic, installs.1⟩ changes
    exact outcome_same ⟨bssid, complete.prevBssid.symm, whole.chan, ssid, ie, whole.mfp, whole.crypto,
      wlanAuth_congr kept whole.crypto keyLen, by rw [kept]⟩ kept keyLen

/-! ### The run -/

/-- What holds in every run whose steps keep the record. -/
structure SavingInv (s : Saving) : Prop where
  rooms : Rooms s.info
  one : s.info.saved = true → ∃ c ∈ s.calls, c.Complete ∧ SavedFrom c s.info

theorem savingInv_start : SavingInv Saves.init where
  rooms := ⟨fun _ here => (nomatch here), fun _ here => nomatch here⟩
  one saved := absurd saved Bool.false_ne_true

theorem SavingInv.save {s : Saving} (inv : SavingInv s) {c : Call} (keeps : Keeps s (.save c)) :
    SavingInv ⟨c.save s.info, s.calls ++ [c]⟩ := by
  have before : s.info.saved = true → ∃ c' ∈ s.calls ++ [c], c'.Complete ∧ SavedFrom c' s.info := by
    intro saved
    obtain ⟨c', member, whole⟩ := inv.one saved
    exact ⟨c', List.mem_append_left _ member, whole⟩
  unfold Call.save
  split
  case isFalse => exact ⟨inv.rooms, before⟩
  case isTrue accepted =>
    by_cases allocated : c.Allocated s.info
    · obtain ⟨keyBuf, iesBuf, stepped, key, same, room⟩ := Call.steps_ok inv.rooms allocated
      have complete := (keeps accepted).1 allocated
      rw [stepped]
      refine ⟨⟨key.room inv.rooms.key, fun buf here => ?_⟩, fun _ => ?_⟩
      · obtain rfl := some.inj here
        exact room
      · exact ⟨c, List.mem_append_right _ List.mem_cons_self, complete, Call.savedFrom_record complete key same room⟩
    · obtain ⟨r, stepped, flag, rooms⟩ := Call.steps_error inv.rooms allocated
      rw [stepped]
      refine ⟨rooms, fun saved => ?_⟩
      have unset := (keeps accepted).2 allocated
      exact absurd (flag.symm.trans saved) (by rw [unset]; exact Bool.false_ne_true)

theorem SavingInv.forget {s : Saving} (inv : SavingInv s) :
    SavingInv { s with info := { s.info with saved := false } } where
  rooms := ⟨inv.rooms.key, inv.rooms.ies⟩
  one saved := absurd saved Bool.false_ne_true

/-- **In every run whose steps keep the record it is one connection**, and recovery asks for that one again. -/
theorem saved_oneConnect {s : Saving} (reach : Saves.Reachable Keeps s) : OneConnect s := by
  have inv : SavingInv s := by
    refine reach.invariant savingInv_start fun s event s' _ inv keeps stepped => ?_
    cases event with
    | save c =>
      obtain rfl := Option.some.inj stepped
      exact inv.save keeps
    | forget =>
      obtain rfl := Option.some.inj stepped
      exact inv.forget
  intro saved
  obtain ⟨c, member, complete, whole⟩ := inv.one saved
  exact ⟨c, member, whole, reconnects complete saved whole⟩

/-! ### Two runs -/

def openSme : ConnectParams where
  bssid := some noMac
  prevBssid := some noMac
  channel := some ⟨0, 2412, 0⟩
  ssid := [0x61]
  ie := [eidSsid, 0]
  authType := .openSystem
  mfp := .no
  crypto := ⟨0, 0, 0, Vector.replicate 5 0, Vector.replicate 2 0, false, 0, false⟩
  keyIdx := 0
  key := none
  keyLen := 0

def openCall : Call := ⟨openSme, 0, true, true, true, nofun⟩

def keyCall : Call where
  sme := { openSme with bssid := some macAddrBcst, ssid := [0x62], key := some [1, 2, 3, 4, 5], keyLen := 5 }
  vifIndex := 0
  chanOk := true
  keyOk := false
  iesOk := true
  keyWhole := by
    intro key given
    obtain rfl := Option.some.inj given
    rfl

/-- **A saved connection** is one. -/
theorem saved_oneConnect_open :
    (openCall.save .start).saved = true ∧ OneConnect ⟨openCall.save .start, [openCall]⟩ := by
  have complete : openCall.Complete := ⟨rfl, rfl, fun filled => absurd rfl filled, by decide, rfl, nofun⟩
  have allocated : openCall.Allocated AssocInfo.start := ⟨fun _ => .inr rfl, (fun key => nomatch key), .inr rfl⟩
  have keeps : Keeps Saves.init (.save openCall) :=
    fun _ => ⟨fun _ => complete, fun missing => absurd allocated missing⟩
  exact ⟨rfl, saved_oneConnect (.step .init keeps rfl)⟩

/-- **A key there is no memory for leaves two connections in one record**: the address of the second call and the
elements of the first, with the flag of the first. -/
theorem saved_mixed : ¬∀ s, Saves.Reachable (fun _ _ => True) s → OneConnect s := by
  intro one
  have reach : Saves.Reachable (fun _ _ => True) ⟨keyCall.save (openCall.save .start), [openCall, keyCall]⟩ :=
    .step (.step (a := .save openCall) .init trivial rfl) (a := .save keyCall) trivial rfl
  obtain ⟨c, member, whole, -⟩ := one _ reach rfl
  rcases List.mem_cons.mp member with rfl | member
  · exact absurd whole.bssid (by decide)
  · obtain rfl := List.mem_singleton.mp member
    exact absurd whole.ies (by decide)

end W2l.SavedAssoc
