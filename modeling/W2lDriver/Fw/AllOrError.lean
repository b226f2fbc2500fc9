/-
**Uploading the firmware: when it is all or error.**

* `storeLines_sound`, `storeLines_done` — the loop of PCIe; `transferLoop_all`, `transferLoop_length` — the pieces.
-/

import W2lDriver.Fw.Upload

namespace W2l.Fw

open Lib
open List (length_append length_drop mem_cons mem_cons_self replicate)

variable {file behind : List Byte}

/-! ### Lines -/

theorem lineStarts_length (n src : ℕ) : (lineStarts n src).length = n := by
  induction n generalizing src with
  | zero => rfl
  | succ n ih => rw [lineStarts, List.length_cons, ih]

theorem hexLines_length_le (mem : List Byte) (n src : ℕ) : (hexLines mem n src).words.length ≤ n := by
  induction n generalizing src with
  | zero => exact Nat.le_refl 0
  | succ n ih =>
    rw [hexLines]
    dsimp only
    split
    · exact Nat.zero_le _
    · exact Nat.succ_le_succ (ih _)

theorem lines_cases (file behind : List Byte) (n src : ℕ) :
    (¬ Readable file (lineStarts n src) ∧ file.length < (hexLines (file ++ behind) n src).reach) ∨
    (Sound file (lineStarts n src) ∧ (hexLines (file ++ behind) n src).reach ≤ file.length ∧
      (hexLines (file ++ behind) n src).err = 0 ∧
      List.Forall₂ (LineIs file) (lineStarts n src) (hexLines (file ++ behind) n src).words) ∨
    (Readable file (lineStarts n src) ∧ ¬ Sound file (lineStarts n src) ∧
      (hexLines (file ++ behind) n src).reach ≤ file.length ∧ (hexLines (file ++ behind) n src).err ≠ 0) := by
  have reach := hexLines_reach file behind n src
  by_cases readable : Readable file (lineStarts n src)
  · have through := hexLines_sound file behind readable
    by_cases sound : Sound file (lineStarts n src)
    · exact .inr (.inl ⟨sound, reach.mpr readable, through.mpr sound, hexLines_words file behind sound⟩)
    · exact .inr (.inr ⟨readable, sound, reach.mpr readable, fun none => sound (through.mp none)⟩)
  · exact .inl ⟨readable, Nat.lt_of_not_le fun le => readable (reach.mp le)⟩

theorem readable_append {first second : List ℕ} : Readable file (first ++ second) ↔
    Readable file first ∧ (Sound file first → Readable file second) := by
  induction first with
  | nil => exact ⟨fun later => ⟨trivial, fun _ => later⟩, fun both => both.2 fun _ no => nomatch no⟩
  | cons start first ih =>
    rw [List.cons_append, Readable, Readable, ih]
    constructor
    · rintro ⟨inside, later⟩
      refine ⟨⟨inside, fun word => (later word).1⟩, fun sound => ?_⟩
      obtain ⟨w, -, word⟩ := sound start mem_cons_self
      exact (later ⟨w, word⟩).2 fun x mem => sound x (List.mem_cons_of_mem start mem)
    · rintro ⟨⟨inside, earlier⟩, later⟩
      refine ⟨inside, fun word => ⟨earlier word, fun sound => later fun x mem => ?_⟩⟩
      obtain ⟨w, word⟩ := word
      rcases mem_cons.mp mem with rfl | mem
      · exact ⟨w, inside, word⟩
      · exact sound x mem

theorem sound_append {first second : List ℕ} :
    Sound file (first ++ second) ↔ Sound file first ∧ Sound file second := by
  unfold Sound
  rw [List.forall_mem_append]

theorem swapped_length (w : BitVec 32) : (swapped w).length = 4 := rfl

theorem flatMap_swapped_length (words : List (BitVec 32)) : (words.flatMap swapped).length = 4 * words.length := by
  induction words with
  | nil => rfl
  | cons w words ih =>
    rw [List.flatMap_cons, length_append, swapped_length, ih, List.length_cons]
    omega

theorem placed_length (base : ℕ) (words : List (BitVec 32)) : (placed base words).length = 4 * words.length := by
  rw [placed, List.length_zipIdx, flatMap_swapped_length]

theorem placed_cons (base : ℕ) (w : BitVec 32) (words : List (BitVec 32)) :
    placed base (w :: words) = (swapped w).zipIdx base ++ placed (base + 4) words := by
  rw [placed, List.flatMap_cons, List.zipIdx_append, swapped_length]
  rfl

/-! ### The loop of PCIe -/

theorem storeLines_sound (behind : List Byte) (sticks : ℕ → Bool) {n src dst : ℕ}
    (sound : Sound file (lineStarts n src)) :
    (storeLines (file ++ behind) sticks n src dst).stop ≠ .parse ∧
      ((∀ i < n, sticks (dst + 4 * i) = true) → storeLines (file ++ behind) sticks n src dst =
        ⟨placed dst (hexLines (file ++ behind) n src).words, .done, (hexLines (file ++ behind) n src).reach⟩) := by
  induction n generalizing src dst with
  | zero => exact ⟨by rw [storeLines]; decide, fun _ => rfl⟩
  | succ n ih =>
    obtain ⟨w, inside, word⟩ := sound src mem_cons_self
    have later := @ih (src + BYTE_IN_LINE) (dst + 4) fun start mem => sound start (List.mem_cons_of_mem src mem)
    rw [storeLines, hexLines, decodeLine_append behind inside, word]
    dsimp only
    constructor
    · split
      · exact later.1
      · rintro ⟨⟩
    · intro all
      have first : sticks dst = true := all 0 (Nat.succ_pos n)
      rw [if_pos first, later.2 fun i below => ?_, placed_cons]
      have := all (i + 1) (Nat.succ_lt_succ below)
      rwa [Nat.mul_succ, Nat.add_comm (4 * i), ← Nat.add_assoc] at this

/-- The loop of PCIe gets through inside the file only when the lines are sound and every word reads back. -/
theorem storeLines_done (behind : List Byte) (sticks : ℕ → Bool) {n src dst : ℕ}
    (done : (storeLines (file ++ behind) sticks n src dst).stop = .done)
    (inside : (storeLines (file ++ behind) sticks n src dst).reach ≤ file.length) :
    Sound file (lineStarts n src) ∧ ∀ i < n, sticks (dst + 4 * i) = true := by
  induction n generalizing src dst with
  | zero => exact ⟨(fun _ no => nomatch no), fun i no => absurd no (Nat.not_lt_zero i)⟩
  | succ n ih =>
    rw [storeLines] at done inside
    dsimp only at done inside
    cases decoded : decodeLine ((file ++ behind).drop src) with
    | error err =>
      rw [decoded] at done
      cases done
    | ok w =>
      rw [decoded] at done inside
      dsimp only at done inside
      by_cases first : sticks dst = true
      · rw [if_pos first] at done inside
        obtain ⟨here, rest⟩ := Nat.max_le.mp inside
        obtain ⟨sound, all⟩ := ih done rest
        have within := (inside_append behind src).mp here
        constructor
        · intro start mem
          rcases mem_cons.mp mem with rfl | mem
          · exact ⟨w, within, by rw [← decodeLine_append behind within, decoded]⟩
          · exact sound start mem
        · intro i below
          cases i with
          | zero => exact first
          | succ i =>
            have := all i (Nat.lt_of_succ_lt_succ below)
            rwa [Nat.mul_succ, Nat.add_comm (4 * i), ← Nat.add_assoc]
      · rw [if_neg first] at done
        cases done

/-! ### The pieces of a staged image -/

section Transfer

variable {size : ℕ} (goOn : Bool) (ok : ℕ → Bool)

theorem transferLoop_all (positive : 0 < size) {fuel : ℕ} {bytes : List Byte} (enough : bytes.length ≤ fuel)
    {k : ℕ} (addr : ℕ) (all : ∀ j, j * size < bytes.length → ok (k + j) = true) :
    transferLoop size goOn ok fuel k addr bytes = bytes.zipIdx addr := by
  induction fuel generalizing k addr bytes with
  | zero =>
    obtain rfl := List.length_eq_zero_iff.mp (Nat.le_zero.mp enough)
    rfl
  | succ fuel ih =>
    rw [transferLoop]
    by_cases empty : bytes = []
    · rw [if_pos empty, empty]
      rfl
    · have nonempty : 0 < bytes.length := List.length_pos_of_ne_nil empty
      have first : ok k = true := all 0 (by rwa [Nat.zero_mul])
      have later : transferLoop size goOn ok fuel (k + 1) (addr + size) (bytes.drop size) =
          (bytes.drop size).zipIdx (addr + size) := by
        refine ih (by rw [length_drop]; omega) (addr + size) fun j below => ?_
        rw [length_drop] at below
        have := all (j + 1) (by rw [Nat.succ_mul]; omega)
        rwa [Nat.add_comm j 1, ← Nat.add_assoc] at this
      rw [if_neg empty]
      dsimp only
      rw [if_pos first, later]
      by_cases long : size ≤ bytes.length
      · conv_rhs => rw [← List.take_append_drop size bytes, List.zipIdx_append, List.length_take_of_le long]
      · rw [List.take_of_length_le (by omega), List.drop_eq_nil_of_le (by omega)]
        exact List.append_nil _

theorem transferLoop_length (positive : 0 < size) (fuel : ℕ) (bytes : List Byte) (k addr : ℕ) :
    (transferLoop size goOn ok fuel k addr bytes).length ≤ bytes.length ∧
      ((transferLoop size goOn ok fuel k addr bytes).length = bytes.length →
        ∀ j, j * size < bytes.length → ok (k + j) = true) := by
  induction fuel generalizing k addr bytes with
  | zero =>
    refine ⟨Nat.zero_le _, fun same j below => ?_⟩
    rw [← same] at below
    exact absurd below (Nat.not_lt_zero _)
  | succ fuel ih =>
    rw [transferLoop]
    by_cases empty : bytes = []
    · rw [if_pos empty, empty]
      exact ⟨Nat.le_refl _, fun _ j below => absurd below (Nat.not_lt_zero _)⟩
    · obtain ⟨le, all⟩ := ih (bytes.drop size) (k + 1) (addr + size)
      have nonempty : 0 < bytes.length := List.length_pos_of_ne_nil empty
      rw [length_drop] at le all
      rw [if_neg empty]
      dsimp only
      by_cases first : ok k = true
      · rw [if_pos first, length_append, List.length_zipIdx, List.length_take]
        refine ⟨by omega, fun same j below => ?_⟩
        cases j with
        | zero => exact first
        | succ j =>
          rw [Nat.succ_mul] at below
          have := all (by omega) j (by omega)
          rwa [Nat.add_assoc, Nat.add_comm 1 j] at this
      · rw [if_neg first]
        split
        · exact ⟨by omega, fun same => absurd same (by omega)⟩
        · exact ⟨Nat.zero_le _, fun same => absurd same (by rw [List.length_nil]; omega)⟩

end Transfer

variable {words : List (BitVec 32)}

theorem wifiDownload_length (bulk : ℕ → Bool) (base : ℕ)
    (pieces : 2 * USB_MAX_TRANS_SIZE < 4 * words.length) (most : 4 * words.length ≤ 3 * USB_MAX_TRANS_SIZE) :
    (wifiDownload bulk base (words.flatMap swapped)).length ≤ 4 * words.length ∧
      ((wifiDownload bulk base (words.flatMap swapped)).length = 4 * words.length ↔ ∀ k < 4, bulk k = true) ∧
      ((∀ k < 4, bulk k = true) → wifiDownload bulk base (words.flatMap swapped) = placed base words) := by
  have size := flatMap_swapped_length words
  have positive : 0 < USB_MAX_TRANS_SIZE := by decide
  have loop := transferLoop_length false bulk positive (words.flatMap swapped).length (words.flatMap swapped) 1 base
  have whole : (∀ k < 4, bulk k = true) → wifiDownload bulk base (words.flatMap swapped) = placed base words := by
    intro all
    rw [wifiDownload, if_pos (all 0 (by decide))]
    refine transferLoop_all false bulk positive (Nat.le_refl _) base fun j below => all (1 + j) ?_
    rw [size] at below
    have : j < 3 := Nat.lt_of_mul_lt_mul_right (below.trans_le most)
    omega
  refine ⟨?_, ⟨fun same => ?_, fun all => by rw [whole all, placed_length]⟩, whole⟩
  · rw [wifiDownload]
    split
    · exact loop.1.trans_eq size
    · exact Nat.zero_le _
  · rw [wifiDownload] at same
    split at same
    · next first =>
      have rest := loop.2 (same.trans size.symm)
      rw [size] at rest
      intro k below
      rcases k with _ | _ | _ | _ | k
      · exact first
      · exact rest 0 (by omega)
      · exact rest 1 (by omega)
      · exact rest 2 (by omega)
      · omega
    · rw [List.length_nil] at same
      omega

theorem sramDownload_length (takes : ℕ → Bool) (base : ℕ)
    (pieces : SRAM_MAX_LEN < 4 * words.length) (most : 4 * words.length ≤ 2 * SRAM_MAX_LEN) :
    (sramDownload takes base (words.flatMap swapped)).length ≤ 4 * words.length ∧
      ((sramDownload takes base (words.flatMap swapped)).length = 4 * words.length ↔ ∀ k < 2, takes k = true) ∧
      ((∀ k < 2, takes k = true) → sramDownload takes base (words.flatMap swapped) = placed base words) := by
  have size := flatMap_swapped_length words
  have positive : 0 < SRAM_MAX_LEN := by decide
  have loop := transferLoop_length true takes positive (words.flatMap swapped).length (words.flatMap swapped) 0 base
  have whole : (∀ k < 2, takes k = true) → sramDownload takes base (words.flatMap swapped) = placed base words := by
    intro all
    refine transferLoop_all true takes positive (Nat.le_refl _) base fun j below => all (0 + j) ?_
    rw [size] at below
    have : j < 2 := Nat.lt_of_mul_lt_mul_right (below.trans_le most)
    omega
  refine ⟨loop.1.trans_eq size, ⟨fun same => ?_, fun all => by rw [whole all, placed_length]⟩, whole⟩
  have rest := loop.2 (same.trans size.symm)
  rw [size] at rest
  intro k below
  rcases k with _ | _ | k
  · exact rest 0 (by omega)
  · exact rest 1 (by omega)
  · omega

variable {instr data : Image} {log : List (Byte × ℕ)}

theorem Loaded.length (loaded : Loaded file instr data log) : log.length = 4 * instr.lines + 4 * data.lines := by
  obtain ⟨instrWords, dataWords, first, second, rfl⟩ := loaded
  rw [length_append, placed_length, placed_length, ← first.length_eq, ← second.length_eq, Image.starts,
    Image.starts, lineStarts_length, lineStarts_length]

theorem Loaded.sound (loaded : Loaded file instr data log) : Sound file instr.starts ∧ Sound file data.starts := by
  obtain ⟨instrWords, dataWords, first, second, -⟩ := loaded
  have words : ∀ {starts : List ℕ} {ws : List (BitVec 32)}, List.Forall₂ (LineIs file) starts ws →
      Sound file starts := by
    intro starts ws all
    induction all with
    | nil => exact fun _ no => nomatch no
    | cons line _ ih =>
      intro start mem
      rcases mem_cons.mp mem with rfl | mem
      · exact ⟨_, line⟩
      · exact ih start mem
  exact ⟨words first, words second⟩

/-! ### The three uploads -/

theorem amlPciPlatformOn_none {load : ℤ} : amlPciPlatformOn load = none ↔ load = 0 := by
  unfold amlPciPlatformOn
  by_cases zero : load = 0 <;> simp [zero]

theorem amlSdioPlatformOn_usb {download : ℤ} : amlSdioPlatformOn .usb download = none ↔ download = 0 :=
  amlPciPlatformOn_none

theorem uploadRight_failed {env : FwEnv} {u : Upload} (failed : u.ret ≠ 0)
    (inside : u.reach ≤ env.file.length) (staged : u.staged ≤ FW_VERBOSE_RING_SIZE)
    (released : u.released = if env.request = 0 then 1 else 0) :
    UploadRight env instr data (u.ret = 0) (u.ret = 0) u :=
  ⟨fun done => absurd done failed, fun _ => failed, inside, staged, released⟩

theorem pcie_right (env : FwEnv) (sticks : ℕ → Bool) :
    UploadRight env (pcieInstr env.file) (pcieData env.file) ((amlPlatFwUpload env sticks).ret = 0)
      (amlPciPlatformOn (amlPlatFwUpload env sticks).ret = none) (amlPlatFwUpload env sticks) ↔
      PcieSound env sticks := by
  rw [amlPciPlatformOn_none]
  unfold amlPlatFwUpload PcieSound
  generalize pcieInstr env.file = instr
  generalize pcieData env.file = data
  by_cases request : env.request = 0
  · rw [if_neg (not_not.mpr request), or_iff_right (not_not.mpr request)]
    dsimp only [FwEnv.mem]
    constructor
    · intro right
      -- a line that does not convert is reported as success, a failed read-back keeps the firmware
      obtain ⟨honest, -, inside, -, released⟩ := right
      rw [if_pos request] at released
      cases first : (storeLines (env.file ++ env.behind) sticks instr.lines instr.src instr.base).stop with
      | parse =>
        rw [first] at honest
        exact absurd first (storeLines_sound env.behind sticks (honest rfl).sound.1).1
      | readBack =>
        rw [first] at released
        cases released
      | done =>
        rw [first] at honest inside released
        dsimp only at honest inside released
        cases second : (storeLines (env.file ++ env.behind) sticks data.lines data.src data.base).stop with
        | parse =>
          rw [second] at honest
          exact absurd second (storeLines_sound env.behind sticks (honest rfl).sound.2).1
        | readBack =>
          rw [second] at released
          cases released
        | done =>
          rw [second] at inside
          obtain ⟨inside1, inside2⟩ := Nat.max_le.mp inside
          intro image mem
          rcases mem_cons.mp mem with rfl | mem
          · exact storeLines_done env.behind sticks first inside1
          · obtain rfl := List.mem_singleton.mp mem
            exact storeLines_done env.behind sticks second inside2
    · intro both
      obtain ⟨sound1, sticks1⟩ := both instr mem_cons_self
      obtain ⟨sound2, sticks2⟩ := both data (List.mem_cons_of_mem _ mem_cons_self)
      rw [(storeLines_sound env.behind sticks sound1).2 sticks1, (storeLines_sound env.behind sticks sound2).2 sticks2]
      have reach1 := (hexLines_reach env.file env.behind instr.lines instr.src).mpr sound1.readable
      have reach2 := (hexLines_reach env.file env.behind data.lines data.src).mpr sound2.readable
      refine ⟨fun _ => ?_, fun bad => absurd rfl bad, Nat.max_le.mpr ⟨reach1, reach2⟩, Nat.zero_le _, ?_⟩
      · exact ⟨_, _, hexLines_words env.file env.behind sound1, hexLines_words env.file env.behind sound2, rfl⟩
      · rw [if_pos request]
  · rw [if_pos request]
    refine iff_of_true (uploadRight_failed request (Nat.zero_le _) (Nat.zero_le _) ?_) (.inl request)
    rw [if_neg request]

theorem staged_le {n n' : ℕ} (mem : List Byte) (src src' : ℕ) (small : 4 * n ≤ FW_VERBOSE_RING_SIZE)
    (small' : 4 * n' ≤ FW_VERBOSE_RING_SIZE) :
    4 * (hexLines mem n src).words.length ≤ FW_VERBOSE_RING_SIZE ∧
      max (4 * (hexLines mem n src).words.length) (4 * (hexLines mem n' src').words.length) ≤
        FW_VERBOSE_RING_SIZE := by
  have first := (Nat.mul_le_mul_left 4 (hexLines_length_le mem n src)).trans small
  have second := (Nat.mul_le_mul_left 4 (hexLines_length_le mem n' src')).trans small'
  exact ⟨first, Nat.max_le.mpr ⟨first, second⟩⟩

theorem words_length {n src : ℕ}
    (all : List.Forall₂ (LineIs file) (lineStarts n src) words) : words.length = n :=
  all.length_eq.symm.trans (lineStarts_length n src)

def ThreePieces (image : Image) : Prop :=
  2 * USB_MAX_TRANS_SIZE < 4 * image.lines ∧ 4 * image.lines ≤ 3 * USB_MAX_TRANS_SIZE

theorem usb_right (env : FwEnv) (iccmBulk dccmBulk : ℕ → Bool) :
    UploadRight env usbInstr usbData ((wifiFwDownload env iccmBulk dccmBulk).ret = 0)
      (amlSdioPlatformOn .usb (wifiFwDownload env iccmBulk dccmBulk).ret = none)
      (wifiFwDownload env iccmBulk dccmBulk) ↔ UsbSound env iccmBulk dccmBulk := by
  have three : ThreePieces usbInstr := ⟨by decide, by decide⟩
  have three' : ThreePieces usbData := ⟨by decide, by decide⟩
  have small : 4 * usbInstr.lines ≤ FW_VERBOSE_RING_SIZE := by decide
  have small' : 4 * usbData.lines ≤ FW_VERBOSE_RING_SIZE := by decide
  rw [amlSdioPlatformOn_usb]
  unfold wifiFwDownload UsbSound
  generalize usbInstr = instr at *
  generalize usbData = data at *
  by_cases request : env.request = 0
  · rw [if_neg (not_not.mpr request), or_iff_right (not_not.mpr request)]
    by_cases prealloc : env.prealloc = false
    · rw [if_pos prealloc]
      refine iff_of_true (uploadRight_failed (by decide) (Nat.zero_le _) (Nat.zero_le _) ?_) (.inl prealloc)
      rw [if_pos request]
    · have staged := fun mem src src' => staged_le mem src src' small small'
      rw [if_neg prealloc, or_iff_right prealloc, readable_append, sound_append]
      dsimp only [FwEnv.mem]
      rcases lines_cases env.file env.behind instr.lines instr.src with
        ⟨unreadable, outside⟩ | ⟨sound, inside, through, words⟩ | ⟨readable, damaged, inside, failed⟩
      · -- a line of the first image is looked at outside the file
        refine iff_of_false (fun right => ?_) fun both => unreadable both.1.1
        have := right.readsInside
        split at this
        · exact absurd this (Nat.not_le.mpr outside)
        · split at this
          · exact absurd (Nat.max_le.mp this).1 (Nat.not_le.mpr outside)
          · exact absurd (Nat.max_le.mp this).1 (Nat.not_le.mpr outside)
      · rw [if_neg (not_not.mpr through)]
        have count := words_length words
        have sent := wifiDownload_length iccmBulk instr.base (by rw [count]; exact three.1)
          (by rw [count]; exact three.2)
        rw [count] at sent
        have readable := sound.readable
        rcases lines_cases env.file env.behind data.lines data.src with
          ⟨unreadable, outside⟩ | ⟨sound', inside', through', words'⟩ | ⟨readable', damaged, inside', failed⟩
        · refine iff_of_false (fun right => ?_) fun both => unreadable (both.1.2 sound)
          have := right.readsInside
          split at this
          · exact absurd (Nat.max_le.mp this).2 (Nat.not_le.mpr outside)
          · exact absurd (Nat.max_le.mp this).2 (Nat.not_le.mpr outside)
        · -- both images are sound: success is right just when both were sent
          rw [if_neg (not_not.mpr through')]
          have count' := words_length words'
          have sent' := wifiDownload_length dccmBulk data.base (by rw [count']; exact three'.1)
            (by rw [count']; exact three'.2)
          rw [count'] at sent'
          constructor
          · intro right
            have total := (right.honest rfl).length
            rw [length_append] at total
            have both : (wifiDownload iccmBulk instr.base ((hexLines (env.file ++ env.behind) instr.lines
                instr.src).words.flatMap swapped)).length = 4 * instr.lines ∧
                (wifiDownload dccmBulk data.base ((hexLines (env.file ++ env.behind) data.lines
                  data.src).words.flatMap swapped)).length = 4 * data.lines := by
              have first := sent.1
              have second := sent'.1
              omega
            exact ⟨⟨readable, fun _ => sound'.readable⟩, fun _ k below =>
              ⟨sent.2.1.mp both.1 k below, sent'.2.1.mp both.2 k below⟩⟩
          · rintro ⟨-, calls⟩
            have all := calls ⟨sound, sound'⟩
            rw [sent.2.2 fun k below => (all k below).1, sent'.2.2 fun k below => (all k below).2]
            refine ⟨fun _ => ⟨_, _, words, words', rfl⟩, fun bad => absurd rfl bad, Nat.max_le.mpr ⟨inside, inside'⟩,
              (staged _ _ _).2, ?_⟩
            rw [if_pos request]
        · rw [if_pos failed]
          refine iff_of_true (uploadRight_failed failed (Nat.max_le.mpr ⟨inside, inside'⟩) (staged _ _ _).2 ?_)
            ⟨⟨readable, fun _ => readable'⟩, fun both => absurd both.2 damaged⟩
          rw [if_pos request]
      · -- a line of the first image does not convert
        rw [if_pos failed]
        refine iff_of_true (uploadRight_failed failed inside (staged _ _ 0).1 ?_)
          ⟨⟨readable, fun sound => absurd sound damaged⟩, fun both => absurd both.1 damaged⟩
        rw [if_pos request]
  · rw [if_pos request]
    refine iff_of_true (uploadRight_failed request (Nat.zero_le _) (Nat.zero_le _) ?_) (.inl request)
    rw [if_neg request]

theorem sdio_succeeds {env : FwEnv} {u : Upload}
    (right : UploadRight env sdioInstr sdioData (u.ret = 1) (amlSdioPlatformOn .sdio u.ret = none) u) :
    u.ret = 1 ∧ Loaded env.file sdioInstr sdioData u.log := by
  have done : u.ret = 1 := by
    by_contra failed
    exact right.stops failed rfl
  exact ⟨done, right.honest done⟩

theorem Loaded.not_short (positive : 0 < data.lines)
    (short : log.length ≤ 4 * instr.lines) : ¬ Loaded file instr data log := by
  intro loaded
  have total := loaded.length
  omega

def TwoPieces (image : Image) : Prop := SRAM_MAX_LEN < 4 * image.lines ∧ 4 * image.lines ≤ 2 * SRAM_MAX_LEN

theorem sdio_right (env : FwEnv) (bus : SdioBus) :
    UploadRight env sdioInstr sdioData ((amlDownloadWifiFwImg env bus).ret = 1)
      (amlSdioPlatformOn .sdio (amlDownloadWifiFwImg env bus).ret = none) (amlDownloadWifiFwImg env bus) ↔
      SdioSound env bus := by
  have two : TwoPieces sdioInstr := ⟨by decide, by decide⟩
  have two' : TwoPieces sdioData := ⟨by decide, by decide⟩
  have small : 4 * sdioInstr.lines ≤ FW_VERBOSE_RING_SIZE := by decide
  have small' : 4 * sdioData.lines ≤ FW_VERBOSE_RING_SIZE := by decide
  have positive : 0 < sdioData.lines := by decide
  have succeeds := @sdio_succeeds env (amlDownloadWifiFwImg env bus)
  unfold amlDownloadWifiFwImg at succeeds ⊢
  unfold SdioSound
  generalize sdioInstr = instr at *
  generalize sdioData = data at *
  by_cases request : env.request = 0
  · rw [if_neg (not_not.mpr request)] at succeeds ⊢
    by_cases prealloc : env.prealloc = false
    · rw [if_pos prealloc] at succeeds ⊢
      refine iff_of_false (fun right => ?_) fun all => ?_
      · exact Loaded.not_short positive (Nat.zero_le _) (succeeds right).2
      · rw [all.2.1] at prealloc
        cases prealloc
    · rw [if_neg prealloc] at succeeds ⊢
      dsimp only [FwEnv.mem] at succeeds ⊢
      by_cases both : Sound env.file instr.starts ∧ Sound env.file data.starts
      · -- both images are sound: what is left are the writes and the comparisons
        obtain ⟨sound, sound'⟩ := both
        have through := (hexLines_sound env.file env.behind sound.readable).mpr sound
        have through' := (hexLines_sound env.file env.behind sound'.readable).mpr sound'
        have words := hexLines_words env.file env.behind sound
        have words' := hexLines_words env.file env.behind sound'
        have count := words_length words
        have count' := words_length words'
        have sent := sramDownload_length bus.iccmTakes instr.base (by rw [count]; exact two.1)
          (by rw [count]; exact two.2)
        have sent' := sramDownload_length bus.dccmTakes data.base (by rw [count']; exact two'.1)
          (by rw [count']; exact two'.2)
        rw [count] at sent
        rw [count'] at sent'
        have inside := (hexLines_reach env.file env.behind instr.lines instr.src).mpr sound.readable
        have inside' := (hexLines_reach env.file env.behind data.lines data.src).mpr sound'.readable
        rw [if_neg (not_not.mpr through)] at succeeds ⊢
        by_cases same : bus.iccmSame = false
        · rw [if_pos same] at succeeds ⊢
          refine iff_of_false (fun right => absurd (succeeds right).1 zero_ne_one) fun all => ?_
          rw [all.2.2.2.2.2.1] at same
          cases same
        rw [if_neg same, if_neg (not_not.mpr through')] at succeeds ⊢
        by_cases same' : bus.dccmSame = false
        · rw [if_pos same'] at succeeds ⊢
          refine iff_of_false (fun right => absurd (succeeds right).1 zero_ne_one) fun all => ?_
          rw [all.2.2.2.2.2.2] at same'
          cases same'
        rw [if_neg same'] at succeeds ⊢
        constructor
        · intro right
          have total := (succeeds right).2.length
          rw [length_append] at total
          have first := sent.1
          have second := sent'.1
          exact ⟨request, Bool.eq_true_of_not_eq_false prealloc, sound, sound', fun k below =>
            ⟨sent.2.1.mp (by omega) k below, sent'.2.1.mp (by omega) k below⟩,
            Bool.eq_true_of_not_eq_false same, Bool.eq_true_of_not_eq_false same'⟩
        · rintro ⟨-, -, -, -, takes, -, -⟩
          rw [sent.2.2 fun k below => (takes k below).1, sent'.2.2 fun k below => (takes k below).2]
          refine ⟨fun _ => ⟨_, _, words, words', rfl⟩, fun bad => absurd rfl bad, Nat.max_le.mpr ⟨inside, inside'⟩,
            (staged_le _ _ _ small small').2, ?_⟩
          rw [if_pos request]
      · exact iff_of_false (fun right => both (succeeds right).2.sound) fun all => both ⟨all.2.2.1, all.2.2.2.1⟩
  · rw [if_pos request] at succeeds ⊢
    exact iff_of_false (fun right => Loaded.not_short positive (Nat.zero_le _) (succeeds right).2)
      fun all => request all.1

/-- **The three uploads are all or error** just under these conditions. -/
theorem uploads_right (env : FwEnv) :
    (∀ sticks, UploadRight env (pcieInstr env.file) (pcieData env.file) ((amlPlatFwUpload env sticks).ret = 0)
      (amlPciPlatformOn (amlPlatFwUpload env sticks).ret = none) (amlPlatFwUpload env sticks) ↔
        PcieSound env sticks) ∧
    (∀ iccmBulk dccmBulk, UploadRight env usbInstr usbData ((wifiFwDownload env iccmBulk dccmBulk).ret = 0)
      (amlSdioPlatformOn .usb (wifiFwDownload env iccmBulk dccmBulk).ret = none)
      (wifiFwDownload env iccmBulk dccmBulk) ↔ UsbSound env iccmBulk dccmBulk) ∧
    ∀ bus, UploadRight env sdioInstr sdioData ((amlDownloadWifiFwImg env bus).ret = 1)
      (amlSdioPlatformOn .sdio (amlDownloadWifiFwImg env bus).ret = none) (amlDownloadWifiFwImg env bus) ↔
        SdioSound env bus :=
  ⟨pcie_right env, usb_right env, sdio_right env⟩

def damagedFile : FwEnv := ⟨0, List.replicate 9 0x7a, [], true⟩

def zeroFile : FwEnv := ⟨0, List.replicate 1474560 0x30, [], true⟩

theorem zeroFile_line {start : ℕ} (inside : start + 8 ≤ 1474560) : LineIs zeroFile.file start 0 := by
  have text : (zeroFile.file.drop start).take 8 = replicate 8 0x30 := by
    show ((replicate 1474560 0x30).drop start).take 8 = _
    rw [List.drop_replicate, List.take_replicate, Nat.min_eq_left (by omega)]
  constructor
  · show start + lineReach _ ≤ (replicate 1474560 (0x30 : Byte)).length
    rw [List.length_replicate]
    exact (Nat.add_le_add_left (Nat.min_le_left _ _) start).trans inside
  · rw [decodeLine, lineText, text]
    rfl

/-- Each upload fails: PCIe reports a damaged file as loaded, USB a download in which no call succeeds, and SDIO goes on
with a damaged file. -/
theorem uploads_wrong : (¬ ∀ env sticks, UploadRight env (pcieInstr env.file) (pcieData env.file)
      ((amlPlatFwUpload env sticks).ret = 0) (amlPciPlatformOn (amlPlatFwUpload env sticks).ret = none)
      (amlPlatFwUpload env sticks)) ∧
    (¬ ∀ env iccmBulk dccmBulk, UploadRight env usbInstr usbData ((wifiFwDownload env iccmBulk dccmBulk).ret = 0)
      (amlSdioPlatformOn .usb (wifiFwDownload env iccmBulk dccmBulk).ret = none)
      (wifiFwDownload env iccmBulk dccmBulk)) ∧
    ¬ ∀ env bus, UploadRight env sdioInstr sdioData ((amlDownloadWifiFwImg env bus).ret = 1)
      (amlSdioPlatformOn .sdio (amlDownloadWifiFwImg env bus).ret = none) (amlDownloadWifiFwImg env bus) := by
  refine ⟨fun all => ?_, fun all => ?_, fun all => ?_⟩
  · have instr : pcieInstr damagedFile.file = ⟨0, 49151 + 1, ICCM_ROM_LEN⟩ := by
      rw [pcieInstr, if_pos (by decide)]
      rfl
    rcases (pcie_right damagedFile fun _ => true).mp (all _ _) with failed | sound
    · exact failed rfl
    · obtain ⟨first, -⟩ := sound _ List.mem_cons_self
      rw [instr] at first
      obtain ⟨w, -, word⟩ := first 0 List.mem_cons_self
      cases word
  · rcases (usb_right zeroFile (fun _ => false) fun _ => false).mp (all _ _ _) with failed | failed | ⟨-, calls⟩
    · exact failed rfl
    · cases failed
    · have sound : Sound zeroFile.file (usbInstr.starts ++ usbData.starts) := by
        intro start mem
        refine ⟨0, zeroFile_line ?_⟩
        rcases List.mem_append.mp mem with mem | mem
        · have bound := (mem_lineStarts mem).2
          unfold usbInstr BYTE_IN_LINE ICCM_ROM_LEN ICCM_RAM_LEN at bound
          dsimp only at bound
          omega
        · have bound := (mem_lineStarts mem).2
          unfold usbData BYTE_IN_LINE ICCM_ALL_LEN ICCM_ROM_LEN ICCM_RAM_LEN DCCM_ALL_LEN at bound
          dsimp only at bound
          omega
      cases (calls sound 0 (by decide)).1
  · obtain ⟨-, -, sound, -⟩ := (sdio_right damagedFile ⟨fun _ => true, true, fun _ => true, true⟩).mp (all _ _)
    have first : sdioInstr.src ∈ sdioInstr.starts := List.mem_cons_self (l := lineStarts 49151 _)
    obtain ⟨w, inside, -⟩ := sound _ first
    have size : sdioInstr.src + lineReach (damagedFile.file.drop sdioInstr.src) ≤ 9 := inside
    unfold sdioInstr BYTE_IN_LINE ICCM_ROM_LEN at size
    dsimp only at size
    omega

end W2l.Fw
