import Cryfs.Config.Outer
import Cryfs.Data.Data

/-!
# Encrypting the inner config

`OuterConfig::encrypt` serializes the inner config, encrypts the bytes with `OuterCipher` under
the outer key, and keeps the ciphertext next to the serialized KDF parameters; `decrypt` builds
the cipher again, decrypts and deserializes. The inner config's format, the KDF parameters and
the cipher (AES-256-GCM) are not among the sources. They enter as parameters, each with the one
law the config file relies on: an inner config deserializes from its own serialization, and the
cipher decrypts the bytes of what it encrypted. Encryption draws a random nonce; the model fixes
one outcome of each call, and the law holds of every outcome.

Each step's error goes through `anyhow`'s `context`, which shows the context string as the
error's message. From the two laws and the format of `Outer.lean`: a config encrypted, written
to a file, read back and decrypted under the same key is the config one started from, and the
KDF parameters that derive the key are read from the file before any key is known.
-/

namespace Cryfs

/-- `anyhow::Context::context`: an error is shown as `msg`; a value or a panic passes through. -/
def context {α : Type} (msg : String) : Res α → Res α
  | .error (.err _) => .error (.err msg)
  | r => r

@[simp] theorem context_ok {α : Type} (msg : String) (a : α) : context msg (.ok a) = .ok a := rfl

@[simp] theorem context_eq_ok {α : Type} {msg : String} {r : Res α} {a : α} :
    context msg r = .ok a ↔ r = .ok a := by
  rcases r with (_ | _) | _ <;> simp [context]

/-- A step under a context fails with the context's message, or succeeds and the rest fails. -/
theorem context_bind_eq_err {α β : Type} {msg m : String} {r : Res α} {f : α → Res β}
    (h : context msg r >>= f = .error (.err m)) : m = msg ∨ ∃ a, r = .ok a ∧ f a = .error (.err m) := by
  rcases r with (_ | _) | a <;> simp_all [context]

theorem panics_context {α : Type} {msg : String} {r : Res α} : Panics (context msg r) ↔ Panics r := by
  rcases r with (_ | _) | _ <;> rfl

/-- An inner config's `serialize` into an empty `Cursor` and its `deserialize`, with the law that
a serialized config deserializes to itself. -/
structure InnerConfigFormat (InnerConfig : Type) where
  serialize : InnerConfig → Res (List UInt8)
  deserialize : List UInt8 → Res InnerConfig
  deserialize_serialize : ∀ {config bytes}, serialize config = .ok bytes → deserialize bytes = .ok config

/-- `OuterCipher` through the `CipherDef` and `Cipher` traits: a cipher built from a key and its two
directions on `Data`, with what an authenticated cipher guarantees: decrypting the bytes of a
ciphertext gives back the bytes of its plaintext. -/
structure CipherDef (EncryptionKey Cipher : Type) where
  new : EncryptionKey → Res Cipher
  encrypt : Cipher → Data → Res Data
  decrypt : Cipher → Data → Res Data
  decrypt_encrypt : ∀ {cipher plaintext ciphertext}, encrypt cipher plaintext = .ok ciphertext →
    ∃ d, decrypt cipher (Data.ofVec ciphertext.asRef) = .ok d ∧ d.asRef = plaintext.asRef

/-- The `KDFParameters` trait: parameters serialize to the bytes the config file stores. -/
class KDFParameters (K : Type) where
  serialize : K → List UInt8

namespace OuterConfig

variable {InnerConfig EncryptionKey Cipher K : Type} [KDFParameters K]
  (format : InnerConfigFormat InnerConfig) (cipherDef : CipherDef EncryptionKey Cipher)

/-- `OuterConfig::encrypt`; `into_vec` keeps the bytes of the ciphertext. -/
def encrypt (config : InnerConfig) (kdfParameters : K) (outerEncryptionKey : EncryptionKey) :
    Res OuterConfig := do
  let serializedInnerConfig ← context "Trying to serialize InnerConfig" (format.serialize config)
  let cipher ← context "Trying to initialize OuterCipher instance" (cipherDef.new outerEncryptionKey)
  let encryptedInnerConfig ← context "Trying to Cipher::encrypt OuterConfig"
    (cipherDef.encrypt cipher (Data.ofVec serializedInnerConfig))
  pure ⟨KDFParameters.serialize kdfParameters, encryptedInnerConfig.asRef⟩

/-- `OuterConfig::decrypt`. -/
def decrypt (self : OuterConfig) (outerEncryptionKey : EncryptionKey) : Res InnerConfig := do
  let cipher ← context "Trying to initialize OuterCipher instance" (cipherDef.new outerEncryptionKey)
  let plaintext ← context "Trying to Cipher::decrypt OuterConfig"
    (cipherDef.decrypt cipher (Data.ofVec self.encryptedInnerConfig))
  let innerConfig ← context "Trying to deserialize InnerConfig" (format.deserialize plaintext.asRef)
  pure innerConfig

variable {format cipherDef}

theorem encrypt_eq_ok {config : InnerConfig} {kdfParameters : K} {key : EncryptionKey}
    {self : OuterConfig} :
    encrypt format cipherDef config kdfParameters key = .ok self ↔
      ∃ bytes, format.serialize config = .ok bytes ∧ ∃ cipher, cipherDef.new key = .ok cipher ∧
        ∃ ciphertext, cipherDef.encrypt cipher (Data.ofVec bytes) = .ok ciphertext ∧
          ⟨KDFParameters.serialize kdfParameters, ciphertext.asRef⟩ = self := by
  simp only [encrypt, bind_eq_ok, context_eq_ok, pure_eq_ok]

/-- `decrypt` undoes `encrypt` under the same key. -/
theorem decrypt_encrypt {config : InnerConfig} {kdfParameters : K} {key : EncryptionKey}
    {self : OuterConfig} (h : encrypt format cipherDef config kdfParameters key = .ok self) :
    self.decrypt format cipherDef key = .ok config := by
  obtain ⟨bytes, hb, cipher, hc, ciphertext, ht, rfl⟩ := encrypt_eq_ok.1 h
  obtain ⟨d, hd, hda⟩ := cipherDef.decrypt_encrypt ht
  simp only [decrypt, hc, hd, context_ok, ok_bind, hda, Data.ofVec_asRef,
    format.deserialize_serialize hb]
  rfl

/-- Every error of `encrypt` is shown as the context of the step that failed. -/
theorem encrypt_eq_err {config : InnerConfig} {kdfParameters : K} {key : EncryptionKey} {m : String}
    (h : encrypt format cipherDef config kdfParameters key = .error (.err m)) :
    m = "Trying to serialize InnerConfig" ∨ m = "Trying to initialize OuterCipher instance" ∨
      m = "Trying to Cipher::encrypt OuterConfig" := by
  unfold encrypt at h
  rcases context_bind_eq_err h with h | ⟨_, _, h⟩
  · exact .inl h
  rcases context_bind_eq_err h with h | ⟨_, _, h⟩
  · exact .inr (.inl h)
  rcases context_bind_eq_err h with h | ⟨_, _, h⟩
  · exact .inr (.inr h)
  · cases h

/-- Every error of `decrypt` is shown as the context of the step that failed. -/
theorem decrypt_eq_err {self : OuterConfig} {key : EncryptionKey} {m : String}
    (h : self.decrypt format cipherDef key = .error (.err m)) :
    m = "Trying to initialize OuterCipher instance" ∨ m = "Trying to Cipher::decrypt OuterConfig" ∨
      m = "Trying to deserialize InnerConfig" := by
  unfold decrypt at h
  rcases context_bind_eq_err h with h | ⟨_, _, h⟩
  · exact .inl h
  rcases context_bind_eq_err h with h | ⟨_, _, h⟩
  · exact .inr (.inl h)
  rcases context_bind_eq_err h with h | ⟨_, _, h⟩
  · exact .inr (.inr h)
  · cases h

/-- `decrypt` panics only where a collaborator does: on a file's bytes, the failures it adds are
errors. -/
theorem decrypt_not_panics (hnew : ∀ key, ¬ Panics (cipherDef.new key))
    (hdec : ∀ cipher d, ¬ Panics (cipherDef.decrypt cipher d))
    (hdes : ∀ bytes, ¬ Panics (format.deserialize bytes)) (self : OuterConfig) (key : EncryptionKey) :
    ¬ Panics (self.decrypt format cipherDef key) :=
  not_panics_bind (panics_context.not.2 (hnew key)) fun _ _ =>
    not_panics_bind (panics_context.not.2 (hdec _ _)) fun _ _ =>
      not_panics_bind (panics_context.not.2 (hdes _)) fun _ _ => not_panics_pure _

/-- **A config file round trip.** A config that `encrypt` wraps and `serialize` writes reads back
as the same `OuterConfig`; its KDF parameters, which derive the key, are those it was encrypted
with; and it decrypts under the same key to the inner config it was made from. The length bound
is that of a `Vec<u8>`, which holds at most `isize::MAX` bytes. -/
theorem config_file_roundtrip {config : InnerConfig} {kdfParameters : K} {key : EncryptionKey}
    {self : OuterConfig} (h : encrypt format cipherDef config kdfParameters key = .ok self)
    (hk : (KDFParameters.serialize kdfParameters).length ≤ isizeMax) :
    ∃ file, self.serialize = .ok file ∧ deserialize file = .ok self ∧
      self.kdfParameters = KDFParameters.serialize kdfParameters ∧
      self.decrypt format cipherDef key = .ok config := by
  obtain ⟨_, _, _, _, ciphertext, _, rfl⟩ := encrypt_eq_ok.1 h
  obtain ⟨file, hs, hd⟩ := @deserialize_serialize ⟨_, ciphertext.asRef⟩ hk
  exact ⟨file, hs, hd, rfl, decrypt_encrypt h⟩

end OuterConfig

/-- An inner config kept as its bytes. -/
def InnerConfigFormat.bytes : InnerConfigFormat (List UInt8) where
  serialize := .ok
  deserialize := .ok
  deserialize_serialize h := (Except.ok.inj h) ▸ rfl

/-- A keyless cipher that reverses the bytes: its own inverse. -/
def CipherDef.reversing : CipherDef Unit Unit where
  new _ := .ok ()
  encrypt _ d := .ok (Data.ofVec d.asRef.reverse)
  decrypt _ d := .ok (Data.ofVec d.asRef.reverse)
  decrypt_encrypt h := ⟨_, rfl, by cases h; simp⟩

instance : KDFParameters (List UInt8) := ⟨id⟩

theorem config_file_roundtrip_reversing :
    OuterConfig.encrypt InnerConfigFormat.bytes CipherDef.reversing [1, 2] ([3] : List UInt8) () =
      .ok ⟨[3], [2, 1]⟩ ∧
    (KDFParameters.serialize ([3] : List UInt8)).length ≤ isizeMax ∧
    ∃ file, OuterConfig.serialize ⟨[3], [2, 1]⟩ = .ok file ∧
      OuterConfig.deserialize file = .ok ⟨[3], [2, 1]⟩ ∧
      OuterConfig.kdfParameters ⟨[3], [2, 1]⟩ = KDFParameters.serialize ([3] : List UInt8) ∧
      OuterConfig.decrypt InnerConfigFormat.bytes CipherDef.reversing ⟨[3], [2, 1]⟩ () = .ok [1, 2] :=
  ⟨rfl, by decide, OuterConfig.config_file_roundtrip rfl (by decide)⟩

end Cryfs
