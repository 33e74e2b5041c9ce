import SpokenMath.Cache.Key
import Mathlib.Data.List.Basic
import Mathlib.Logic.Function.Basic
import Mathlib.Tactic.SplitIfs

/-!
# Byte strings that can be read back

What is hashed is put together from numbers of a fixed width, from fields with their length in
front, from texts with a byte behind them that they do not hold, and from marks that begin a
section. This file shows that nothing is lost on the way: equal byte strings come from equal parts.

* `littleEndian64_injective` — a number is determined by its bytes.
* `append_cons_inj` — a text ends at the first byte that cannot belong to it. Such a byte is 255 for
  any text (`not_mem_nameBytes`), and 0 for a text without NUL (`zero_not_mem_nameBytes`).
* `lengthPrefixed_append_inj` — a field ends where its length says, so what follows it is
  determined as well.
* `fields_mark_inj` — a row of fields ends at the mark of the next section.

The last one is not true of all byte strings. A field can begin with the bytes of a mark, when its
length does. But then the first byte of a mark stands once more in the one string than in the
other, and what is hashed holds it no more often than it has marks.
-/

namespace SpokenMath

/-! ## Numbers -/

@[simp] theorem length_littleEndian64 (n : UInt64) : (littleEndian64 n).length = 8 := rfl

@[simp] theorem length_bigEndian64 (n : UInt64) : (bigEndian64 n).length = 8 := rfl

theorem toNat_byte (n k : UInt64) (hk : k.toNat < 64) :
    (n >>> k).toUInt8.toNat = (n.toNat >>> k.toNat) % 256 := by
  rw [UInt64.toNat_toUInt8, UInt64.toNat_shiftRight, Nat.mod_eq_of_lt hk]

/-- The bytes of a number are its digits to the base 256. -/
theorem littleEndian64_injective : Function.Injective littleEndian64 := by
  intro a b h
  simp only [littleEndian64, List.cons.injEq, and_true] at h
  obtain ⟨h₀, h₁, h₂, h₃, h₄, h₅, h₆, h₇⟩ := h
  replace h₀ := congrArg UInt8.toNat h₀
  replace h₁ := congrArg UInt8.toNat h₁
  replace h₂ := congrArg UInt8.toNat h₂
  replace h₃ := congrArg UInt8.toNat h₃
  replace h₄ := congrArg UInt8.toNat h₄
  replace h₅ := congrArg UInt8.toNat h₅
  replace h₆ := congrArg UInt8.toNat h₆
  replace h₇ := congrArg UInt8.toNat h₇
  rw [toNat_byte _ _ (by decide), toNat_byte _ _ (by decide)] at h₁ h₂ h₃ h₄ h₅ h₆ h₇
  simp only [UInt64.toNat_toUInt8, UInt64.reduceToNat] at h₀ h₁ h₂ h₃ h₄ h₅ h₆ h₇
  have ha := a.toNat_lt
  have hb := b.toNat_lt
  apply UInt64.toNat_inj.mp
  omega

theorem bigEndian64_injective : Function.Injective bigEndian64 := fun _ _ h =>
  littleEndian64_injective (List.reverse_inj.mp h)

/-! ## Texts -/

theorem Text.bytes_injective : Function.Injective Text.bytes := by
  intro s t h
  have hb : (String.ofList s).toByteArray = (String.ofList t).toByteArray :=
    ByteArray.ext (Array.ext' h)
  exact String.ofList_injective (String.toByteArray_inj.mp hb)

theorem nameBytes_injective : Function.Injective nameBytes := by
  intro s t h
  exact String.toByteArray_inj.mp (ByteArray.ext (Array.ext' h))

theorem nameBytes_eq (s : String) : nameBytes s = s.toList.flatMap String.utf8EncodeChar := by
  rw [nameBytes, ← String.utf8Encode_toList, List.utf8Encode]
  simp

/-- The bytes of a character are less than 248, and none of them is 0 but that of NUL. -/
theorem toNat_utf8EncodeChar (c : Char) :
    ∀ b ∈ String.utf8EncodeChar c, b.toNat < 248 ∧ (b.toNat = 0 → c.toNat = 0) := by
  have hbyte : ∀ n, (UInt8.ofNat n).toNat = n % 256 := fun n => UInt8.toNat_ofNat'
  show ∀ b ∈ _, _ ∧ (_ → c.val.toNat = 0)
  simp only [String.utf8EncodeChar]
  split_ifs <;>
    simp only [List.forall_mem_cons, List.not_mem_nil, false_implies, implies_true, and_true,
      hbyte] <;>
    omega

theorem not_mem_nameBytes (s : String) : 0xff ∉ nameBytes s := by
  rw [nameBytes_eq, List.mem_flatMap]
  rintro ⟨c, -, hb⟩
  exact absurd (toNat_utf8EncodeChar c _ hb).1 (by decide)

theorem zero_not_mem_nameBytes {s : String} (h : '\x00' ∉ s.toList) : 0 ∉ nameBytes s := by
  rw [nameBytes_eq, List.mem_flatMap]
  rintro ⟨c, hc, hb⟩
  have hnul : c = '\x00' := Char.toNat_inj.mp ((toNat_utf8EncodeChar c _ hb).2 rfl)
  exact h (hnul ▸ hc)

/-- What stands in front of an end mark is read back, with what follows the mark. -/
theorem append_cons_inj {α : Type} {mark : α} {a b s t : List α} (ha : mark ∉ a) (hb : mark ∉ b)
    (h : a ++ mark :: s = b ++ mark :: t) : a = b ∧ s = t := by
  rcases List.append_eq_append_iff.mp h with ⟨m, rfl, hm⟩ | ⟨m, rfl, hm⟩
  all_goals
    cases m with
    | nil => simp_all
    | cons c m =>
      obtain rfl := (List.cons.inj hm).1
      simp at ha hb

/-! ## Fields -/

@[simp] theorem length_lengthPrefixed (b : List UInt8) :
    (lengthPrefixed b).length = b.length + 8 := by
  simp only [lengthPrefixed, List.length_append, length_littleEndian64]
  omega

/-- A field is read back from the front of a byte string, with what follows it. -/
theorem lengthPrefixed_append_inj {a b s t : List UInt8} (ha : a.length < UInt64.size)
    (hb : b.length < UInt64.size) (h : lengthPrefixed a ++ s = lengthPrefixed b ++ t) :
    a = b ∧ s = t := by
  simp only [lengthPrefixed, List.append_assoc] at h
  obtain ⟨hlen, hrest⟩ := List.append_inj h rfl
  have hab : a.length = b.length := by
    have := congrArg UInt64.toNat (littleEndian64_injective hlen)
    rwa [UInt64.toNat_ofNat_of_lt' ha, UInt64.toNat_ofNat_of_lt' hb] at this
  exact List.append_inj hrest hab

/-! ## Sections -/

/-- A field that begins like a mark holds the first byte of it. -/
theorem count_pos_of_lengthPrefixed_eq_mark {b s r : List UInt8} {tag : UInt8}
    (h : lengthPrefixed b ++ s = 0xff :: tag :: r) : 0 < (lengthPrefixed b).count 0xff := by
  simp only [lengthPrefixed, littleEndian64, List.cons_append, List.cons.injEq] at h ⊢
  rw [h.1, List.count_cons_self]
  exact Nat.succ_pos _

/-- A row of fields is read back up to the mark behind it, if the byte that begins a mark is as
frequent behind the one as behind the other. -/
theorem fields_mark_inj (tag : UInt8) {r r' : List UInt8} (hr : r.count 0xff = r'.count 0xff)
    {bs cs : List (List UInt8)} (hb : ∀ b ∈ bs, b.length < UInt64.size)
    (hc : ∀ c ∈ cs, c.length < UInt64.size)
    (h : bs.flatMap lengthPrefixed ++ 0xff :: tag :: r =
      cs.flatMap lengthPrefixed ++ 0xff :: tag :: r') :
    bs = cs ∧ r = r' := by
  induction bs generalizing cs with
  | nil =>
    cases cs with
    | nil => simpa using h
    | cons c cs =>
      simp only [List.flatMap_nil, List.nil_append, List.flatMap_cons, List.append_assoc] at h
      have hpos := count_pos_of_lengthPrefixed_eq_mark h.symm
      have hcount := congrArg (List.count 0xff) h
      simp only [List.count_append, List.count_cons] at hcount
      omega
  | cons b bs ih =>
    cases cs with
    | nil =>
      simp only [List.flatMap_nil, List.nil_append, List.flatMap_cons, List.append_assoc] at h
      have hpos := count_pos_of_lengthPrefixed_eq_mark h
      have hcount := congrArg (List.count 0xff) h
      simp only [List.count_append, List.count_cons] at hcount
      omega
    | cons c cs =>
      simp only [List.flatMap_cons, List.append_assoc] at h
      obtain ⟨rfl, hrest⟩ := lengthPrefixed_append_inj (hb b List.mem_cons_self)
        (hc c List.mem_cons_self) h
      obtain ⟨rfl, rfl⟩ := ih (fun b' h' => hb b' (List.mem_cons_of_mem _ h'))
        (fun c' h' => hc c' (List.mem_cons_of_mem _ h')) hrest
      exact ⟨rfl, rfl⟩

end SpokenMath
