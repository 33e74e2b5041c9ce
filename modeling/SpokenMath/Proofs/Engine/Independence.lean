import SpokenMath.Engine.Process
import SpokenMath.Proofs.Memory.View
import SpokenMath.Proofs.Screening.Accepted

/-!
# What a result depends on

Computing speech reads the cleaned text, the audience, the domain that is asked for, and the view of
the memory (`compute_congr`). The key of a call is the digest of exactly these, together with what
is fixed for an engine, so calls with one key message compute the same (`compute_of_keyMessage`).
-/

namespace SpokenMath

/-! ## Reading memory through its view -/

theorem detect_congr {m m' : Memory} (h : m.view = m'.view) (f : Features)
    (hint : Option Domain) : detect f hint m = detect f hint m' := by
  have htopic : m.topic = m'.topic := congrArg Memory.View.topic h
  rw [detect, detect, htopic]

theorem choose_congr {m m' : Memory} (h : m.view = m'.view) (emphasized : Bool)
    (opened : Option StructureKind) :
    VoiceRole.choose emphasized opened m = VoiceRole.choose emphasized opened m' := by
  rw [VoiceRole.choose, VoiceRole.choose, Memory.open_frame_eq, Memory.open_frame_eq, h]

theorem isDefined_congr {m m' : Memory} (h : m.view = m'.view) : m.isDefined = m'.isDefined := by
  funext s
  rw [Memory.isDefined_eq, Memory.isDefined_eq, h]

theorem structures_congr {m m' : Memory} (h : m.view = m'.view) (tree : Node) (text : Text)
    (notices : List Notice) :
    Analysis.structures tree text notices m = Analysis.structures tree text notices m' := by
  unfold Analysis.structures
  rw [Memory.current?_kind_eq, Memory.current?_kind_eq, h]

theorem analyze_congr {m m' : Memory} (h : m.view = m'.view) (tree : Node)
    (notices : List Notice) (report : Bool) :
    analyze tree notices m report = analyze tree notices m' report := by
  simp only [analyze, isDefined_congr h, structures_congr h]

namespace Engine

/-- **Speech depends on nothing but the cleaned text with its limit, the audience, the domain that
is asked for, and the view of the memory.** -/
theorem compute_congr {e : Engine} {i i' : SafeInput} {x x' : Expression} {m m' : Memory}
    (htext : i.text = i'.text) (hdepth : i.maxDepth = i'.maxDepth)
    (haudience : x.audience = x'.audience) (hdomain : x.domain = x'.domain)
    (hview : m.view = m'.view) (d : Deadline) :
    e.compute i x m d = e.compute i' x' m' d := by
  unfold compute
  rw [htext, hdepth, haudience, hdomain]
  split
  · rfl
  · simp only [detect_congr hview, analyze_congr hview, choose_congr hview]

/-! ## The key -/

/-- The message whose digest is the key of a call. -/
def keyMessage (e : Engine) (i : SafeInput) (x : Expression) (m : Memory) : List UInt8 :=
  (e.keyParts i x m).flatMap KeyPart.encode

/-- The key is the digest of the message. -/
theorem key_eq (e : Engine) (i : SafeInput) (x : Expression) (m : Memory) :
    e.key i x m = Digest.ofMessage (e.keyMessage i x m) := rfl

end Engine

theorem Audience.name_injective : Function.Injective Audience.name := by
  intro a b h
  cases a <;> cases b <;> first | rfl | exact absurd h (by decide)

/-- Two lists of parts that begin with a text have that text in common if the same is hashed. -/
theorem KeyPart.text_cons_inj {s t : Text} {ps qs : List KeyPart}
    (hs : ((KeyPart.text s :: ps).flatMap encode).length < UInt64.size)
    (h : (KeyPart.text s :: ps).flatMap encode = (KeyPart.text t :: qs).flatMap encode) :
    s = t ∧ ps.flatMap encode = qs.flatMap encode := by
  have ht := hs
  rw [h] at ht
  simp only [List.flatMap_cons, encode, List.length_append, length_lengthPrefixed] at hs ht h
  obtain ⟨hbytes, hrest⟩ := lengthPrefixed_append_inj (by omega) (by omega) h
  exact ⟨Text.bytes_injective hbytes, hrest⟩

namespace Engine

/-- A key message determines the text up to collapsing, the audience, the domain that is asked for,
the fingerprint, and the revision of the rules, whatever the engine. -/
theorem keyMessage_inj {e e' : Engine} {i i' : SafeInput} {x x' : Expression} {m m' : Memory}
    (hsize : (e.keyMessage i x m).length < UInt64.size)
    (h : e.keyMessage i x m = e'.keyMessage i' x' m') :
    i.text.collapse = i'.text.collapse ∧ x.audience = x'.audience ∧ x.domain = x'.domain ∧
      m.fingerprint = m'.fingerprint ∧ e.book.revision = e'.book.revision := by
  obtain ⟨htext, h⟩ := KeyPart.text_cons_inj hsize h
  have hsize₁ := Nat.lt_of_le_of_lt (Nat.le_add_left _ _) (by
    rwa [keyMessage, keyParts, List.flatMap_cons, List.length_append] at hsize)
  obtain ⟨haudience, h⟩ := KeyPart.text_cons_inj hsize₁ h
  have hsize₂ := Nat.lt_of_le_of_lt (Nat.le_add_left _ _) (by
    rwa [List.flatMap_cons, List.length_append] at hsize₁)
  obtain ⟨hdomain, h⟩ := KeyPart.text_cons_inj hsize₂ h
  have hword : ∀ n, (bigEndian64 n).length < UInt64.size := fun n => by
    rw [length_bigEndian64]
    decide
  obtain ⟨hfingerprint, h⟩ := lengthPrefixed_append_inj (hword _) (hword _) h
  have hrevision := (List.append_inj h rfl).1
  exact ⟨htext, Audience.name_injective (String.toList_injective haudience),
    Domain.getD_name_injective (String.toList_injective hdomain),
    bigEndian64_injective hfingerprint, littleEndian64_injective hrevision⟩

/-- **Calls with the same key message compute the same**, where equal fingerprints stand for equal
hashed bytes of the memories. -/
theorem compute_of_keyMessage {e : Engine} {raw raw' : Text} {i i' : SafeInput}
    {x x' : Expression} {m m' : Memory} (hi : Screening.check raw e.config.limits = .ok i)
    (hi' : Screening.check raw' e.config.limits = .ok i')
    (hsize : (e.keyMessage i x m).length < UInt64.size)
    (hfsize : m.fingerprintBytes.length < UInt64.size)
    (hkey : e.keyMessage i x m = e.keyMessage i' x' m')
    (hfingerprint : m.fingerprint = m'.fingerprint → m.fingerprintBytes = m'.fingerprintBytes)
    (d : Deadline) : e.compute i x m d = e.compute i' x' m' d := by
  obtain ⟨htext, haudience, hdomain, hf, -⟩ := keyMessage_inj hsize hkey
  rw [Screening.collapse_text_of_check hi, Screening.collapse_text_of_check hi'] at htext
  have hview := Memory.view_eq_of_fingerprintBytes hfsize (hfingerprint hf)
  have hdepth := (Screening.text_of_check hi).2.trans (Screening.text_of_check hi').2.symm
  exact compute_congr htext hdepth haudience hdomain hview d

end Engine

end SpokenMath
