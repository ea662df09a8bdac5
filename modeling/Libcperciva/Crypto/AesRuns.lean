import Libcperciva.Crypto.AesArmCipher
import Libcperciva.Crypto.AesModel
import Libcperciva.Crypto.AesniCipher

/-!
# Runs of the AES functions

`hwaccel` is set once, before there is a key, so each key is used as what it
is; and each implementation computes AES, so it does not matter which one was
chosen.  The code with special instructions passes its tests wherever `malloc`
succeeds in them, and so does OpenSSL where it computes AES.
-/

namespace Libcperciva.Crypto.AesRuns

open Libcperciva.Lib.Aes
open Libcperciva.Crypto.AesModel

variable {κ : Type} {openssl : Openssl κ} {machine : Machine} {keys : Keys κ}
  {hwaccel : Hwaccel} {mallocs : Mallocs}

/-- OpenSSL computes AES. -/
def Correct (openssl : Openssl κ) : Prop :=
  ∀ key : List UInt8, key.length = 16 ∨ key.length = 32 →
    ∃ k, openssl.aesSetEncryptKey key (key.length * 8) = some k ∧
      ∀ block, openssl.aesEncrypt block k = encrypt key block

/-- A key works: it encrypts as AES does, and can be freed. -/
def Works (openssl : Openssl κ) (hwaccel : Hwaccel) (bytes : List UInt8)
    (key : CryptoAesKey κ) : Prop :=
  (∀ block, cryptoAesEncryptBlock openssl hwaccel block key =
    .ok (encrypt bytes block)) ∧ cryptoAesKeyFree hwaccel key = .ok ()

/-- `hwaccel` was chosen, if there is a choice. -/
def Chosen (machine : Machine) (hwaccel : Hwaccel) : Prop :=
  hwaccel = .unset → machine.hwaccel = false

/-- The machine has the instructions that `hwaccel` stands for. -/
def Supported (machine : Machine) (hwaccel : Hwaccel) : Prop :=
  (hwaccel = .x86Aesni → machine.cpusupportX86Aesni = some true) ∧
    (hwaccel = .armAes → machine.cpusupportArmAes = some true)

/-- What holds of `hwaccel` and the keys. -/
structure Valid (openssl : Openssl κ) (machine : Machine) (keys : Keys κ) :
    Prop where
  supported : Supported machine keys.hwaccel
  works : ∀ entry ∈ keys.live, Works openssl keys.hwaccel entry.1 entry.2
  /-- There is no key before `hwaccel` was chosen. -/
  chosen : keys.live ≠ [] → Chosen machine keys.hwaccel

theorem Valid.start : Valid openssl machine (Keys.start : Keys κ) where
  supported := ⟨fun isX86 => Hwaccel.noConfusion isX86,
    fun isArm => Hwaccel.noConfusion isArm⟩
  works _ isKey := absurd isKey List.not_mem_nil
  chosen notEmpty := absurd rfl notEmpty

/-! ## Tests -/

/-- One call for each vector of the tests. -/
theorem functest_eq_true_iff
    {func : Nat → List UInt8 → Nat → List UInt8 → Option (List UInt8)} :
    functest func = true ↔ ∀ i knowngood, testcases[i]? = some knowngood →
      func i knowngood.key knowngood.len knowngood.ptext =
        some knowngood.ctext := by
  unfold functest
  rw [List.all_eq_true]
  constructor
  · intro passed i knowngood isTest
    exact of_decide_eq_true
      (passed (knowngood, i) (List.mk_mem_zipIdx_iff_getElem?.mpr isTest))
  · rintro passed ⟨knowngood, i⟩ isTest
    exact decide_eq_true
      (passed i knowngood (List.mk_mem_zipIdx_iff_getElem?.mp isTest))

/-- The keys of the tests have one of the two lengths. -/
theorem lengths_of_test : ∀ knowngood ∈ testcases,
    (knowngood.key.length = 16 ∨ knowngood.key.length = 32) ∧
      knowngood.len = knowngood.key.length := by
  decide

section

variable {key : List UInt8} (lengths : key.length = 16 ∨ key.length = 32)
  (i : Nat) (ptext : List UInt8)

include lengths

theorem x86AesniOneshot_eq (malloc : Nat → Option AesniModel.Rkeys) :
    x86AesniOneshot malloc i key key.length ptext =
      (malloc i).map fun _ => encrypt key ptext := by
  unfold x86AesniOneshot
  rcases malloc i with _ | rkeys
  · rfl
  · obtain ⟨kexp, result, isRounds, expanded⟩ :=
      AesniCipher.cryptoAesKeyExpandAesni_spec lengths rfl rkeys
    rw [result]
    exact congrArg some (AesniCipher.cryptoAesEncryptBlockAesni_spec lengths
      rfl isRounds expanded ptext)

theorem armAesOneshot_eq (malloc : Nat → Option AesArmModel.Rkeys) :
    armAesOneshot malloc i key key.length ptext =
      (malloc i).map fun _ => encrypt key ptext := by
  unfold armAesOneshot
  rcases malloc i with _ | rkeys
  · rfl
  · obtain ⟨kexp, result, isRounds, expanded⟩ :=
      AesArmCipher.cryptoAesKeyExpandArm_spec lengths rfl rkeys
    rw [result]
    exact congrArg some (AesArmCipher.cryptoAesEncryptBlockArm_spec lengths
      rfl isRounds expanded ptext)

theorem opensslOneshot_eq (correct : Correct openssl) :
    opensslOneshot openssl i key key.length ptext =
      some (encrypt key ptext) := by
  obtain ⟨kexp, expanded, encrypted⟩ := correct key lengths
  unfold opensslOneshot
  rw [expanded]
  exact congrArg some (encrypted ptext)

end

/-- The vectors of the tests are AES, as the code for AESNI passes them. -/
theorem encrypt_test {knowngood : AesTest} (isTest : knowngood ∈ testcases) :
    encrypt knowngood.key knowngood.ptext = knowngood.ctext := by
  have passed : functest (x86AesniOneshot fun _ =>
      some (Vector.replicate 15 0)) = true := by
    decide +kernel
  obtain ⟨lengths, isLength⟩ := lengths_of_test knowngood isTest
  obtain ⟨i, isNumber⟩ := List.getElem?_of_mem isTest
  have result := functest_eq_true_iff.mp passed i knowngood isNumber
  rw [isLength, x86AesniOneshot_eq lengths] at result
  exact Option.some.inj result

/-- A function that encrypts as AES does, where it gets memory, passes the
tests for which it gets memory. -/
theorem functest_eq_true_iff_malloc {α : Type} {malloc : Nat → Option α}
    {func : Nat → List UInt8 → Nat → List UInt8 → Option (List UInt8)}
    (encrypts : ∀ i key ptext, key.length = 16 ∨ key.length = 32 →
      func i key key.length ptext =
        (malloc i).map fun _ => encrypt key ptext) :
    functest func = true ↔ ∀ i < testcases.length, malloc i ≠ none := by
  rw [functest_eq_true_iff]
  constructor
  · intro passed i isNumber failed
    have isTest := List.getElem?_eq_getElem isNumber
    have result := passed i _ isTest
    obtain ⟨lengths, isLength⟩ :=
      lengths_of_test _ (List.mem_of_getElem? isTest)
    rw [isLength, encrypts i _ _ lengths, failed] at result
    exact absurd result.symm (Option.some_ne_none _)
  · intro succeeds i knowngood isTest
    obtain ⟨lengths, isLength⟩ :=
      lengths_of_test _ (List.mem_of_getElem? isTest)
    obtain ⟨isNumber, _⟩ := List.getElem?_eq_some_iff.mp isTest
    obtain ⟨memory, isMemory⟩ :=
      Option.ne_none_iff_exists'.mp (succeeds i isNumber)
    rw [isLength, encrypts i _ _ lengths, isMemory,
      ← encrypt_test (List.mem_of_getElem? isTest)]
    rfl

theorem functest_opensslOneshot (correct : Correct openssl) :
    functest (opensslOneshot openssl) = true := by
  have encrypts (i : Nat) (key ptext : List UInt8)
      (lengths : key.length = 16 ∨ key.length = 32) :
      opensslOneshot openssl i key key.length ptext =
        (some ()).map fun _ => encrypt key ptext :=
    opensslOneshot_eq lengths i ptext correct
  apply (functest_eq_true_iff_malloc encrypts).mpr
  intro i _
  exact Option.some_ne_none ()

/-- Such a function is not chosen where there are no instructions for it, or no
memory. -/
theorem not_chosen_iff {α : Type} {malloc : Nat → Option α}
    {func : Nat → List UInt8 → Nat → List UInt8 → Option (List UInt8)}
    {isSupported : Prop}
    (encrypts : ∀ i key ptext, key.length = 16 ∨ key.length = 32 →
      func i key key.length ptext =
        (malloc i).map fun _ => encrypt key ptext) :
    ¬ (isSupported ∧ functest func = true) ↔
      (isSupported → ∃ i < testcases.length, malloc i = none) := by
  rw [functest_eq_true_iff_malloc encrypts]
  push Not
  rfl

/-- No implementation that the machine has passes its tests, in the call of
`hwaccel_init` that has to choose one. -/
structure NonePasses (openssl : Openssl κ) (machine : Machine)
    (mallocs : Mallocs) (hwaccel : Hwaccel) : Prop where
  compiled : machine.hwaccel = true
  unset : hwaccel = .unset
  x86 : machine.cpusupportX86Aesni = some true →
    ∃ i < testcases.length, mallocs.testX86 i = none
  arm : machine.cpusupportArmAes = some true →
    ∃ i < testcases.length, mallocs.testArm i = none
  openssl : functest (opensslOneshot openssl) = false

/-- `hwaccel_init` aborts where no implementation passes. -/
theorem hwaccelInitIf_eq_abort_iff :
    hwaccelInitIf openssl machine mallocs hwaccel = .error .abort ↔
      NonePasses openssl machine mallocs hwaccel := by
  have x86 := @not_chosen_iff _ mallocs.testX86 _
    (machine.cpusupportX86Aesni = some true) fun i _ ptext lengths =>
      x86AesniOneshot_eq lengths i ptext mallocs.testX86
  have arm := @not_chosen_iff _ mallocs.testArm _
    (machine.cpusupportArmAes = some true) fun i _ ptext lengths =>
      armAesOneshot_eq lengths i ptext mallocs.testArm
  unfold hwaccelInitIf hwaccelInit
  constructor
  · intro aborts
    split_ifs at aborts with compiled isSet noX86 noArm passed
    exact ⟨compiled, not_not.mp isSet, x86.mp noX86, arm.mp noArm,
      Bool.not_eq_true _ ▸ passed⟩
  · rintro ⟨compiled, unset, noX86, noArm, failed⟩
    rw [if_pos compiled, if_neg (not_not.mpr unset), if_neg (x86.mpr noX86),
      if_neg (arm.mpr noArm), failed]
    rfl

/-- `hwaccel_init` keeps a choice, and otherwise chooses what the machine
supports. -/
theorem hwaccelInitIf_spec
    (passes : ¬ NonePasses openssl machine mallocs hwaccel)
    (supported : Supported machine hwaccel) :
    ∃ after, hwaccelInitIf openssl machine mallocs hwaccel = .ok after ∧
      Supported machine after ∧ Chosen machine after ∧
      (Chosen machine hwaccel → after = hwaccel) := by
  have noAbort := mt hwaccelInitIf_eq_abort_iff.mp passes
  unfold hwaccelInitIf at noAbort ⊢
  by_cases compiled : machine.hwaccel = true
  · rw [if_pos compiled] at noAbort ⊢
    unfold hwaccelInit at noAbort ⊢
    by_cases isSet : hwaccel ≠ .unset
    · rw [if_pos isSet]
      exact ⟨hwaccel, rfl, supported,
        fun isUnset => absurd isUnset isSet, fun _ => rfl⟩
    · have isUnset : hwaccel = .unset := not_not.mp isSet
      have notChosen : ¬ Chosen machine hwaccel := fun chosen =>
        Bool.false_ne_true ((chosen isUnset).symm.trans compiled)
      rw [if_neg isSet] at noAbort ⊢
      split_ifs at noAbort ⊢ with x86 arm
      · exact ⟨_, rfl,
          ⟨fun _ => x86.1, fun isArm => Hwaccel.noConfusion isArm⟩,
          fun isUnset => Hwaccel.noConfusion isUnset,
          fun chosen => absurd chosen notChosen⟩
      · exact ⟨_, rfl,
          ⟨fun isX86 => Hwaccel.noConfusion isX86, fun _ => arm.1⟩,
          fun isUnset => Hwaccel.noConfusion isUnset,
          fun chosen => absurd chosen notChosen⟩
      · exact ⟨_, rfl,
          ⟨fun isX86 => Hwaccel.noConfusion isX86,
            fun isArm => Hwaccel.noConfusion isArm⟩,
          fun isUnset => Hwaccel.noConfusion isUnset,
          fun chosen => absurd chosen notChosen⟩
      · exact absurd rfl noAbort
  · rw [if_neg compiled]
    exact ⟨hwaccel, rfl, supported,
      fun _ => Bool.not_eq_true _ ▸ compiled, fun _ => rfl⟩

/-- OpenSSL passes its tests where it computes AES. -/
theorem Correct.passes (correct : Correct openssl) :
    ¬ NonePasses openssl machine mallocs hwaccel := by
  intro nonePasses
  exact Bool.false_ne_true
    (nonePasses.openssl.symm.trans (functest_opensslOneshot correct))

/-! ## Keys -/

/-- A key that was expanded works. -/
theorem cryptoAesKeyExpand_works (correct : Correct openssl)
    {bytes : List UInt8} (lengths : bytes.length = 16 ∨ bytes.length = 32)
    {after : Hwaccel}
    (init : hwaccelInitIf openssl machine mallocs hwaccel = .ok after) :
    ∃ key, cryptoAesKeyExpand openssl machine mallocs hwaccel bytes
        bytes.length = .ok (key, after) ∧
      ∀ k, key = some k → Works openssl after bytes k := by
  unfold cryptoAesKeyExpand
  rw [if_neg (not_not.mpr lengths), init]
  dsimp only [bind, Except.bind]
  have noKey (k : CryptoAesKey κ) (isSome : none = some k) :
      Works openssl after bytes k :=
    absurd isSome (Option.some_ne_none k).symm
  cases after with
  | x86Aesni =>
      rcases mallocs.aesni with _ | rkeys
      · exact ⟨none, rfl, noKey⟩
      · obtain ⟨kexp, result, isRounds, expanded⟩ :=
          AesniCipher.cryptoAesKeyExpandAesni_spec lengths rfl rkeys
        have encrypted := AesniCipher.cryptoAesEncryptBlockAesni_spec lengths
          rfl isRounds expanded
        rw [result]
        refine ⟨some (.aesni kexp), rfl, ?_⟩
        rintro k ⟨⟩
        exact ⟨fun block => congrArg Except.ok (encrypted block), rfl⟩
  | armAes =>
      rcases mallocs.arm with _ | rkeys
      · exact ⟨none, rfl, noKey⟩
      · obtain ⟨kexp, result, isRounds, expanded⟩ :=
          AesArmCipher.cryptoAesKeyExpandArm_spec lengths rfl rkeys
        have encrypted := AesArmCipher.cryptoAesEncryptBlockArm_spec lengths
          rfl isRounds expanded
        rw [result]
        refine ⟨some (.arm kexp), rfl, ?_⟩
        rintro k ⟨⟩
        exact ⟨fun block => congrArg Except.ok (encrypted block), rfl⟩
  | software | unset =>
      rcases mallocs.openssl with _ | _
      · exact ⟨none, rfl, noKey⟩
      · obtain ⟨kexp, expanded, encrypted⟩ := correct bytes lengths
        rw [expanded]
        refine ⟨some (.openssl kexp), rfl, ?_⟩
        rintro k ⟨⟩
        exact ⟨fun block => congrArg Except.ok (encrypted block), rfl⟩

/-- What the callers keep to: keys have 16 or 32 bytes. -/
def Allowed : Op → Prop
  | .keyExpand _ keyUnexpanded =>
      keyUnexpanded.length = 16 ∨ keyUnexpanded.length = 32
  | .canUseIntrinsics _ | .encryptBlock _ _ | .keyFree _ => True

/-- What a call does: it keeps a choice that was made, and encrypts as AES
does. -/
structure Performs (openssl : Openssl κ) (machine : Machine)
    (keys after : Keys κ) (result : Result) : Prop where
  valid : Valid openssl machine after
  kept : Chosen machine keys.hwaccel → after.hwaccel = keys.hwaccel
  encrypted : ∀ bytes block ciphertext,
    result = .encrypted bytes block ciphertext →
      ciphertext = encrypt bytes block

/-- The keys that were there still work. -/
theorem Valid.kept {after : Hwaccel} (valid : Valid openssl machine keys)
    (same : Chosen machine keys.hwaccel → after = keys.hwaccel) :
    ∀ entry ∈ keys.live, Works openssl after entry.1 entry.2 := by
  intro entry isKey
  rw [same (valid.chosen (List.ne_nil_of_mem isKey))]
  exact valid.works entry isKey

/-- `crypto_aes_can_use_intrinsics`. -/
theorem Valid.canUseIntrinsics (valid : Valid openssl machine keys)
    {after : Hwaccel} (supported : Supported machine after)
    (chosen : Chosen machine after)
    (same : Chosen machine keys.hwaccel → after = keys.hwaccel)
    (init : hwaccelInitIf openssl machine mallocs keys.hwaccel = .ok after) :
    ∃ code, step openssl machine keys (.canUseIntrinsics mallocs) =
        .ok ({ keys with hwaccel := after }, .intrinsics code) ∧
      Performs openssl machine keys { keys with hwaccel := after }
        (.intrinsics code) := by
  have performs (code : Nat) : Performs openssl machine keys
      { keys with hwaccel := after } (.intrinsics code) :=
    ⟨⟨supported, valid.kept same, fun _ => chosen⟩, same,
      fun _ _ _ isEncrypted => Result.noConfusion isEncrypted⟩
  unfold step cryptoAesCanUseIntrinsics
  dsimp only
  rw [init]
  dsimp only [bind, Except.bind]
  split_ifs
  · exact ⟨1, rfl, performs 1⟩
  · exact ⟨2, rfl, performs 2⟩
  · exact ⟨0, rfl, performs 0⟩

/-- `crypto_aes_key_expand`. -/
theorem Valid.keyExpand (correct : Correct openssl)
    (valid : Valid openssl machine keys) {bytes : List UInt8}
    (lengths : bytes.length = 16 ∨ bytes.length = 32) {after : Hwaccel}
    (supported : Supported machine after) (chosen : Chosen machine after)
    (same : Chosen machine keys.hwaccel → after = keys.hwaccel)
    (init : hwaccelInitIf openssl machine mallocs keys.hwaccel = .ok after) :
    ∃ done result, step openssl machine keys (.keyExpand mallocs bytes) =
        .ok (done, result) ∧ Performs openssl machine keys done result := by
  obtain ⟨key, isKey, works⟩ := cryptoAesKeyExpand_works correct lengths init
  unfold step
  dsimp only
  rw [isKey]
  dsimp only [bind, Except.bind]
  rcases key with _ | key
  · exact ⟨_, _, rfl, ⟨supported, valid.kept same, fun _ => chosen⟩, same,
      fun _ _ _ isEncrypted => Result.noConfusion isEncrypted⟩
  · refine ⟨_, _, rfl, ⟨supported, ?_, fun _ => chosen⟩, same,
      fun _ _ _ isEncrypted => Result.noConfusion isEncrypted⟩
    intro entry isEntry
    rcases List.mem_append.mp isEntry with old | new
    · exact valid.kept same entry old
    · rw [List.mem_singleton.mp new]
      exact works key rfl

/-- `crypto_aes_encrypt_block`. -/
theorem Valid.encryptBlock (valid : Valid openssl machine keys)
    (block : List UInt8) (i : Nat) :
    ∃ result, step openssl machine keys (.encryptBlock block i) =
        .ok (keys, result) ∧ Performs openssl machine keys keys result := by
  unfold step
  dsimp only
  rcases isEntry : keys.live[i]? with _ | ⟨bytes, key⟩
  · exact ⟨_, rfl, valid, fun _ => rfl,
      fun _ _ _ isEncrypted => Result.noConfusion isEncrypted⟩
  · have works := valid.works (bytes, key) (List.mem_of_getElem? isEntry)
    dsimp only
    rw [works.1 block]
    refine ⟨_, rfl, valid, fun _ => rfl, ?_⟩
    rintro _ _ _ ⟨⟩
    rfl

/-- `crypto_aes_key_free`. -/
theorem Valid.keyFree (valid : Valid openssl machine keys) (i : Nat) :
    ∃ after result, step openssl machine keys (.keyFree i) =
        .ok (after, result) ∧ Performs openssl machine keys after result := by
  unfold step
  dsimp only
  rcases isEntry : keys.live[i]? with _ | ⟨bytes, key⟩
  · exact ⟨_, _, rfl, valid, fun _ => rfl,
      fun _ _ _ isEncrypted => Result.noConfusion isEncrypted⟩
  · have isKey := List.mem_of_getElem? isEntry
    dsimp only
    rw [(valid.works (bytes, key) isKey).2]
    refine ⟨_, _, rfl, ⟨valid.supported, ?_, ?_⟩, fun _ => rfl,
      fun _ _ _ isEncrypted => Result.noConfusion isEncrypted⟩
    · intro entry left
      exact valid.works entry (List.mem_of_mem_eraseIdx left)
    · intro _
      exact valid.chosen (List.ne_nil_of_mem isKey)

/-- A call does what it should. -/
theorem Valid.step (correct : Correct openssl)
    (valid : Valid openssl machine keys) {op : Op} (allowed : Allowed op) :
    ∃ after result, step openssl machine keys op = .ok (after, result) ∧
      Performs openssl machine keys after result := by
  cases op with
  | canUseIntrinsics mallocs =>
      have passes : ¬ NonePasses openssl machine mallocs keys.hwaccel :=
        correct.passes
      obtain ⟨after, init, supported, chosen, same⟩ :=
        hwaccelInitIf_spec passes valid.supported
      obtain ⟨code, result, performs⟩ :=
        valid.canUseIntrinsics supported chosen same init
      exact ⟨_, _, result, performs⟩
  | keyExpand mallocs bytes =>
      have passes : ¬ NonePasses openssl machine mallocs keys.hwaccel :=
        correct.passes
      obtain ⟨after, init, supported, chosen, same⟩ :=
        hwaccelInitIf_spec passes valid.supported
      exact valid.keyExpand correct allowed supported chosen same init
  | encryptBlock block i =>
      obtain ⟨result, isResult, performs⟩ := valid.encryptBlock block i
      exact ⟨keys, result, isResult, performs⟩
  | keyFree i => exact valid.keyFree i

/-- What `malloc` returns in the calls that choose an implementation. -/
def choosing : Op → Option Mallocs
  | .canUseIntrinsics mallocs | .keyExpand mallocs _ => some mallocs
  | .encryptBlock _ _ | .keyFree _ => none

theorem ok_ne_error {ε α : Type} (a : α) (fault : ε) :
    (.ok a : Except ε α) ≠ .error fault := by
  intro isFault
  cases isFault

/-- What goes on after a call fails where the call fails. -/
theorem bind_eq_error_iff {ε α β : Type} {x : Except ε α}
    {f : α → Except ε β} {fault : ε} (goesOn : ∀ a, f a ≠ .error fault) :
    x >>= f = .error fault ↔ x = .error fault := by
  rcases x with _ | a
  · exact ⟨fun isFault => congrArg Except.error (Except.error.inj isFault),
      fun isFault => congrArg Except.error (Except.error.inj isFault)⟩
  · exact ⟨fun isFault => absurd isFault (goesOn a),
      fun isFault => absurd isFault (ok_ne_error a fault)⟩

theorem cryptoAesCanUseIntrinsics_eq_abort_iff :
    cryptoAesCanUseIntrinsics openssl machine mallocs hwaccel =
        .error .abort ↔
      hwaccelInitIf openssl machine mallocs hwaccel = .error .abort := by
  apply bind_eq_error_iff
  intro after
  split_ifs <;> exact ok_ne_error _ _

theorem cryptoAesKeyExpand_eq_abort_iff {bytes : List UInt8}
    (lengths : bytes.length = 16 ∨ bytes.length = 32) :
    cryptoAesKeyExpand openssl machine mallocs hwaccel bytes bytes.length =
        .error .abort ↔
      hwaccelInitIf openssl machine mallocs hwaccel = .error .abort := by
  unfold cryptoAesKeyExpand
  rw [if_neg (not_not.mpr lengths)]
  apply bind_eq_error_iff
  intro after
  split_ifs <;> exact ok_ne_error _ _

/-- A key that is used as one of another type is no abort. -/
theorem cryptoAesEncryptBlock_ne_abort (block : List UInt8)
    (key : CryptoAesKey κ) :
    cryptoAesEncryptBlock openssl hwaccel block key ≠ .error .abort := by
  unfold cryptoAesEncryptBlock
  split_ifs
  all_goals
    cases key with
    | openssl key | aesni key | arm key =>
        intro aborts
        cases aborts

theorem cryptoAesKeyFree_ne_abort (key : CryptoAesKey κ) :
    cryptoAesKeyFree hwaccel key ≠ .error .abort := by
  unfold cryptoAesKeyFree
  split_ifs
  all_goals
    cases key with
    | openssl key | aesni key | arm key =>
        intro aborts
        cases aborts

/-- Whatever OpenSSL computes, only `hwaccel_init` aborts. -/
theorem step_eq_abort_iff {op : Op} (allowed : Allowed op) :
    step openssl machine keys op = .error .abort ↔
      ∃ mallocs, choosing op = some mallocs ∧
        NonePasses openssl machine mallocs keys.hwaccel := by
  have chooses (mallocs : Mallocs) :
      hwaccelInitIf openssl machine mallocs keys.hwaccel = .error .abort ↔
        ∃ given, some mallocs = some given ∧
          NonePasses openssl machine given keys.hwaccel := by
    rw [hwaccelInitIf_eq_abort_iff]
    constructor
    · intro nonePasses
      exact ⟨mallocs, rfl, nonePasses⟩
    · rintro ⟨_, ⟨⟩, nonePasses⟩
      exact nonePasses
  cases op with
  | canUseIntrinsics mallocs =>
      apply Iff.trans _ (chooses mallocs)
      rw [← cryptoAesCanUseIntrinsics_eq_abort_iff]
      exact bind_eq_error_iff fun _ => ok_ne_error _ _
  | keyExpand mallocs bytes =>
      apply Iff.trans _ (chooses mallocs)
      rw [← cryptoAesKeyExpand_eq_abort_iff allowed]
      apply bind_eq_error_iff
      rintro ⟨_ | key, after⟩
      · exact ok_ne_error _ _
      · exact ok_ne_error _ _
  | encryptBlock block i =>
      apply iff_of_false
      · unfold step
        dsimp only
        rcases keys.live[i]? with _ | ⟨bytes, key⟩
        · exact ok_ne_error _ _
        · apply mt (bind_eq_error_iff fun _ => ok_ne_error _ _).mp
          exact cryptoAesEncryptBlock_ne_abort block key
      · rintro ⟨_, isChoice, _⟩
        cases isChoice
  | keyFree i =>
      apply iff_of_false
      · unfold step
        dsimp only
        rcases keys.live[i]? with _ | ⟨bytes, key⟩
        · exact ok_ne_error _ _
        · apply mt (bind_eq_error_iff fun _ => ok_ne_error _ _).mp
          exact cryptoAesKeyFree_ne_abort key
      · rintro ⟨_, isChoice, _⟩
        cases isChoice

/-- The states that calls lead to. -/
inductive Reaches (openssl : Openssl κ) (machine : Machine) :
    Keys κ → Prop where
  | start : Reaches openssl machine Keys.start
  | step {keys after : Keys κ} {op : Op} {result : Result}
      (reaches : Reaches openssl machine keys) (allowed : Allowed op)
      (isStep : AesModel.step openssl machine keys op = .ok (after, result)) :
      Reaches openssl machine after

theorem Reaches.valid (correct : Correct openssl)
    (reaches : Reaches openssl machine keys) :
    Valid openssl machine keys := by
  induction reaches with
  | start => exact .start
  | @step keys after op result _ allowed isStep ih =>
      obtain ⟨after', result', isStep', performs⟩ := ih.step correct allowed
      cases isStep.symm.trans isStep'
      exact performs.valid

/-- Whatever the machine is and whatever `malloc` returns, in each state that
calls lead to the keys encrypt as AES does with the bytes that they were
expanded from, by instructions that the machine has, and are freed as what
they are; a choice is never changed; and no call fails.  An OpenSSL that does
not compute AES makes a call abort where it fails the tests, and what the
machine has instead could not be tested for want of memory. -/
theorem crypto_aes_run (reaches : Reaches openssl machine keys) :
    (Correct openssl →
      Valid openssl machine keys ∧ ∀ op, Allowed op →
        ∃ after result,
          AesModel.step openssl machine keys op = .ok (after, result) ∧
          Performs openssl machine keys after result) ∧
    ∀ op, Allowed op →
      (AesModel.step openssl machine keys op = .error .abort ↔
        ∃ mallocs, choosing op = some mallocs ∧
          NonePasses openssl machine mallocs keys.hwaccel) := by
  constructor
  · intro correct
    have valid := reaches.valid correct
    exact ⟨valid, fun _ allowed => valid.step correct allowed⟩
  · intro op allowed
    exact step_eq_abort_iff allowed

/-- A key is expanded, on a machine without instructions. -/
theorem crypto_aes_run_software :
    let openssl : Openssl (List UInt8) :=
      { aesSetEncryptKey := fun key _ => some key
        aesEncrypt := fun block key => encrypt key block }
    let key : List UInt8 := List.replicate 32 1
    let keys : Keys (List UInt8) :=
      { hwaccel := .unset, live := [(key, .openssl key)] }
    Correct openssl ∧ Reaches openssl ⟨none, none⟩ keys ∧
      Valid openssl ⟨none, none⟩ keys := by
  intro openssl key keys
  have correct : Correct openssl := fun key _ => ⟨key, rfl, fun _ => rfl⟩
  let mallocs : Mallocs := ⟨fun _ => none, fun _ => none, none, none, true⟩
  have reaches : Reaches openssl ⟨none, none⟩ keys :=
    .step .start (show Allowed (.keyExpand mallocs key) from Or.inr rfl) rfl
  exact ⟨correct, reaches, ((crypto_aes_run reaches).1 correct).1⟩

end Libcperciva.Crypto.AesRuns
