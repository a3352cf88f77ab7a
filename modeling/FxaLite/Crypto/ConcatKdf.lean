import FxaLite.Crypto.Hkdf
import FxaLite.Lib.BlockStream
import FxaLite.Lib.SelfDelimiting

/-!
# The Concat KDF

`concat_kdf` of `jose.py`: the key of a direct key agreement, block by block from a counter, the
shared secret, and a description of the key in which every part but the last has its length before
it. `struct.pack(">I", …)` writes four bytes and refuses what they do not hold. Since every part says where
it ends, two descriptions are equal only if all their parts are, and two blocks hash the same only if
they have the same counter.
-/

namespace FxaLite.Crypto

open BlockStream

/-- The last number of four bytes. -/
def maxWord : ℕ := 4294967295

/-- Four bytes, the most significant first. -/
def wordBytes (n : ℕ) : List UInt8 :=
  [UInt8.ofNat (n / 16777216), UInt8.ofNat (n / 65536 % 256), UInt8.ofNat (n / 256 % 256), UInt8.ofNat (n % 256)]

/-- `struct.pack(">I", n)`; `none` is a `struct.error`. -/
def packWord (n : ℕ) : Option (List UInt8) := if maxWord < n then none else some (wordBytes n)

/-- `_length_prefixed`. -/
def lengthPrefixed (data : List UInt8) : Option (List UInt8) := (packWord data.length).map (· ++ data)

/-- The description of the key that every block takes in. -/
def otherInfo (algorithmId apu apv : List UInt8) (length : ℕ) : Option (List UInt8) := do
  let algorithmId ← lengthPrefixed algorithmId
  let apu ← lengthPrefixed apu
  let apv ← lengthPrefixed apv
  let bits ← packWord (length * 8)
  return algorithmId ++ apu ++ apv ++ bits

/-- The blocks of a key. -/
def concatBlocks (h : Sha256) (sharedSecret suffix : List UInt8) : Source UInt8 where
  width := hashLength
  width_pos := hashLength_pos
  next counter _ := h.sha256 (wordBytes counter ++ sharedSecret ++ suffix)
  length_next _ _ := h.length_sha256 _

/-- `concat_kdf`. -/
def concatKdf (h : Sha256) (sharedSecret algorithmId apu apv : List UInt8) (length : ℕ) : Option (List UInt8) := do
  let suffix ← otherInfo algorithmId apu apv length
  let p ← (concatBlocks h sharedSecret suffix).fill maxWord length ⟨[], [], 1⟩
  return p.out.take length

/-- What fits into four bytes is written. -/
theorem packWord_of_le {n : ℕ} (h : n ≤ maxWord) : packWord n = some (wordBytes n) := if_neg (not_lt.mpr h)

/-- What is written fits. -/
theorem le_maxWord_of_packWord {n : ℕ} {bytes : List UInt8} (hbytes : packWord n = some bytes) : n ≤ maxWord := by
  by_contra hlarge
  rw [packWord, if_pos (not_le.mp hlarge)] at hbytes
  cases hbytes

/-- From parts that are not too long a key is derived: the first bytes of its blocks. -/
theorem concatKdf_eq_output (h : Sha256) (sharedSecret : List UInt8) {algorithmId apu apv : List UInt8} {length : ℕ}
    (halgorithm : algorithmId.length ≤ maxWord) (hapu : apu.length ≤ maxWord) (hapv : apv.length ≤ maxWord)
    (hlength : length * 8 ≤ maxWord) :
    ∃ info, otherInfo algorithmId apu apv length = some info ∧ (concatBlocks h sharedSecret info).rounds length ≤ maxWord ∧
      concatKdf h sharedSecret algorithmId apu apv length = some ((concatBlocks h sharedSecret info).output length 1 []) := by
  have hinfo : ∃ info, otherInfo algorithmId apu apv length = some info := by
    simp [otherInfo, lengthPrefixed, packWord_of_le halgorithm, packWord_of_le hapu, packWord_of_le hapv, packWord_of_le hlength]
  obtain ⟨info, hinfo⟩ := hinfo
  have hrounds : (concatBlocks h sharedSecret info).rounds length ≤ length :=
    (Source.rounds_le_iff _).mpr (Nat.le_mul_of_pos_right _ (Source.width_pos _))
  have hfill := (concatBlocks h sharedSecret info).fill_start maxWord length 1 []
  rw [if_pos (Or.inr (by omega))] at hfill
  refine ⟨info, hinfo, by omega, ?_⟩
  simp only [concatKdf, hinfo, hfill, Option.bind_eq_bind, Option.bind_some, Source.out_iterate_turn, List.nil_append]
  rfl

/-- It has the length asked for. -/
theorem exists_concatKdf (h : Sha256) (sharedSecret : List UInt8) {algorithmId apu apv : List UInt8} {length : ℕ}
    (halgorithm : algorithmId.length ≤ maxWord) (hapu : apu.length ≤ maxWord) (hapv : apv.length ≤ maxWord)
    (hlength : length * 8 ≤ maxWord) :
    ∃ key, concatKdf h sharedSecret algorithmId apu apv length = some key ∧ key.length = length := by
  obtain ⟨info, -, -, hkey⟩ := concatKdf_eq_output h sharedSecret halgorithm hapu hapv hlength
  exact ⟨_, hkey, Source.length_output _ _ _ _⟩

/-- The length of a key that is derived. -/
theorem length_of_concatKdf {h : Sha256} {sharedSecret algorithmId apu apv key : List UInt8} {length : ℕ}
    (hkey : concatKdf h sharedSecret algorithmId apu apv length = some key) : key.length = length := by
  simp only [concatKdf, Option.bind_eq_bind, Option.bind_eq_some_iff] at hkey
  obtain ⟨suffix, -, p, hfill, hkey⟩ := hkey
  rw [Source.fill_start] at hfill
  split at hfill
  · cases hfill
    cases hkey
    rw [Source.out_iterate_turn, List.nil_append]
    exact Source.length_output _ _ _ _
  · cases hfill

/-! ### Separation -/

/-- Four bytes hold one number. -/
theorem wordBytes_injective {n n' : ℕ} (hn : n ≤ maxWord) (hn' : n' ≤ maxWord) (h : wordBytes n = wordBytes n') : n = n' := by
  simp only [wordBytes, List.cons.injEq, ← UInt8.toNat_inj, UInt8.toNat_ofNat', and_true] at h
  unfold maxWord at hn hn'
  omega

/-- So a number of four bytes delimits itself. -/
theorem packWord_selfDelimiting : SelfDelimiting packWord := by
  refine SelfDelimiting.of_width 4 (fun n code hcode => ?_) fun n n' code hcode hcode' => ?_
  · rw [packWord_of_le (le_maxWord_of_packWord hcode)] at hcode
    exact Option.some.inj hcode ▸ rfl
  · have hn := le_maxWord_of_packWord hcode
    have hn' := le_maxWord_of_packWord hcode'
    rw [packWord_of_le hn] at hcode
    rw [packWord_of_le hn'] at hcode'
    exact wordBytes_injective hn hn' (Option.some.inj (hcode.trans hcode'.symm))

/-- And so do bytes with their length before them. -/
theorem lengthPrefixed_selfDelimiting : SelfDelimiting lengthPrefixed := packWord_selfDelimiting.lengthFirst

/-- The description of a key is made of the descriptions of its parts. -/
theorem otherInfo_eq_some {algorithmId apu apv info : List UInt8} {length : ℕ} :
    otherInfo algorithmId apu apv length = some info ↔
      ∃ first second third last, lengthPrefixed algorithmId = some first ∧ lengthPrefixed apu = some second ∧
        lengthPrefixed apv = some third ∧ packWord (length * 8) = some last ∧ first ++ (second ++ (third ++ last)) = info := by
  simp [otherInfo, Option.bind_eq_some_iff]

/-- A description determines what it describes. -/
theorem otherInfo_injective {algorithmId apu apv algorithmId' apu' apv' info : List UInt8} {length length' : ℕ}
    (h : otherInfo algorithmId apu apv length = some info) (h' : otherInfo algorithmId' apu' apv' length' = some info) :
    algorithmId = algorithmId' ∧ apu = apu' ∧ apv = apv' ∧ length = length' := by
  obtain ⟨first, second, third, last, hfirst, hsecond, hthird, hlast, rfl⟩ := otherInfo_eq_some.mp h
  obtain ⟨first', second', third', last', hfirst', hsecond', hthird', hlast', heq⟩ := otherInfo_eq_some.mp h'
  obtain ⟨halgorithm, heq⟩ := lengthPrefixed_selfDelimiting hfirst' hfirst heq
  obtain ⟨hapu, heq⟩ := lengthPrefixed_selfDelimiting hsecond' hsecond heq
  obtain ⟨hapv, rfl⟩ := lengthPrefixed_selfDelimiting hthird' hthird heq
  have hbits : length * 8 = length' * 8 := packWord_selfDelimiting.injective hlast hlast'
  exact ⟨halgorithm.symm, hapu.symm, hapv.symm, by omega⟩

/-- What is hashed for a block. -/
def blockInput (sharedSecret suffix : List UInt8) (counter : ℕ) : List UInt8 := wordBytes counter ++ sharedSecret ++ suffix

/-- It determines the counter of the block, whatever the secrets and the descriptions. -/
theorem blockInput_separates {sharedSecret suffix sharedSecret' suffix' : List UInt8} {counter counter' : ℕ}
    (hcounter : counter ≤ maxWord) (hcounter' : counter' ≤ maxWord)
    (h : blockInput sharedSecret suffix counter = blockInput sharedSecret' suffix' counter') : counter = counter' := by
  rw [blockInput, blockInput, List.append_assoc, List.append_assoc] at h
  exact (packWord_selfDelimiting (packWord_of_le hcounter) (packWord_of_le hcounter') h).1

/-- The blocks of a key. -/
theorem concatBlocks_blocks (h : Sha256) (sharedSecret suffix : List UInt8) (rounds : ℕ) :
    (concatBlocks h sharedSecret suffix).blocks rounds 1 [] =
      (List.range' 1 rounds).flatMap fun counter => h.sha256 (blockInput sharedSecret suffix counter) :=
  Source.blocks_eq_flatMap _ (fun _ _ => rfl) rounds 1 []

/-- Descriptions of different keys differ, blocks with different counters hash different strings, and the loop ends
with the first bytes of its blocks, as many as are asked for, however many blocks they take. -/
theorem concat_kdf_separates (h : Sha256) :
    (∀ (algorithmId apu apv algorithmId' apu' apv' info : List UInt8) (length length' : ℕ),
      otherInfo algorithmId apu apv length = some info → otherInfo algorithmId' apu' apv' length' = some info →
      algorithmId = algorithmId' ∧ apu = apu' ∧ apv = apv' ∧ length = length') ∧
    (∀ (sharedSecret suffix sharedSecret' suffix' : List UInt8) (counter counter' : ℕ), counter ≤ maxWord → counter' ≤ maxWord →
      counter ≠ counter' → blockInput sharedSecret suffix counter ≠ blockInput sharedSecret' suffix' counter') ∧
    ∀ (sharedSecret algorithmId apu apv : List UInt8) (length : ℕ), algorithmId.length ≤ maxWord → apu.length ≤ maxWord →
      apv.length ≤ maxWord → length < 536870912 →
      ∃ info rounds key, otherInfo algorithmId apu apv length = some info ∧
        concatKdf h sharedSecret algorithmId apu apv length = some key ∧ key.length = length ∧ rounds ≤ maxWord ∧
        key = ((List.range' 1 rounds).flatMap fun counter => h.sha256 (blockInput sharedSecret info counter)).take length := by
  refine ⟨fun _ _ _ _ _ _ _ _ _ hinfo hinfo' => otherInfo_injective hinfo hinfo', ?_, ?_⟩
  · intro _ _ _ _ _ _ hcounter hcounter' hne heq
    exact hne (blockInput_separates hcounter hcounter' heq)
  · intro sharedSecret algorithmId apu apv length halgorithm hapu hapv hlength
    have hbits : length * 8 ≤ maxWord := by
      unfold maxWord
      omega
    obtain ⟨info, hinfo, hrounds, hkey⟩ := concatKdf_eq_output h sharedSecret halgorithm hapu hapv hbits
    refine ⟨info, _, _, hinfo, hkey, Source.length_output _ _ _ _, hrounds, ?_⟩
    rw [Source.output, concatBlocks_blocks]

end FxaLite.Crypto
