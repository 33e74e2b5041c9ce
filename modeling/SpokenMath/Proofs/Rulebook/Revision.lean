import SpokenMath.Proofs.Cache.Codec
import SpokenMath.Rule.Book

/-!
# What the revision of a book tells

The **imprint** of a rule is what is hashed of it. Its parts end in different ways:

* the name and the source of the matcher at the byte 0, which they must not hold,
* the name of the domain by itself, as no such name begins with another one,
* the priority after four bytes, whatever they are, and
* the template at the byte 255, which is in no text.

So an imprint is read back from the front of a message, with what follows it
(`Imprint.bytes_append_inj`), and a list of rules from the whole message.

**Theorem (`revisionBytes_eq_iff`).** The same bytes are hashed of two lists of rules exactly if
they have the same imprints, rule by rule.
-/

namespace SpokenMath

/-! ## The name of a domain -/

namespace Domain

/-- No name of a domain begins with the name of another one. -/
theorem eq_of_name_isPrefix {d d' : Domain} (h : nameBytes d.name <+: nameBytes d'.name) :
    d = d' := by
  cases d <;> cases d' <;> first | rfl | exact absurd h (by decide)

theorem name_append_inj {d d' : Domain} {s t : List UInt8}
    (h : nameBytes d.name ++ s = nameBytes d'.name ++ t) : d = d' ∧ s = t := by
  have hfront := List.prefix_append (nameBytes d.name) s
  have hfront' := List.prefix_append (nameBytes d'.name) t
  rw [← h] at hfront'
  obtain rfl : d = d' := by
    rcases List.prefix_or_prefix_of_prefix hfront hfront' with hle | hle
    · exact eq_of_name_isPrefix hle
    · exact (eq_of_name_isPrefix hle).symm
  exact ⟨rfl, List.append_cancel_left h⟩

end Domain

/-! ## The imprint of a rule -/

/-- What is hashed of a rule. -/
structure Imprint where
  id : String
  domain : Domain
  priority : Priority
  source : String
  /-- The template. That of a phrase is empty. -/
  template : String
  deriving DecidableEq, Repr

namespace Imprint

/-- There is no NUL in the name and in the source. -/
def NulFree (i : Imprint) : Prop := '\x00' ∉ i.id.toList ∧ '\x00' ∉ i.source.toList

instance : DecidablePred NulFree := fun _ => inferInstanceAs (Decidable (_ ∧ _))

/-- The bytes that are hashed. -/
def bytes (i : Imprint) : List UInt8 :=
  nameBytes i.id ++ 0 :: (nameBytes i.domain.name ++ (littleEndian32 i.priority.toUInt32 ++
    (nameBytes i.source ++ 0 :: (nameBytes i.template ++ [0xff]))))

theorem bytes_ne_nil (i : Imprint) : i.bytes ≠ [] := by
  simp [bytes]

/-- An imprint is read back from the front of a message. -/
theorem bytes_append_inj {i j : Imprint} {s t : List UInt8} (hi : i.NulFree) (hj : j.NulFree)
    (h : i.bytes ++ s = j.bytes ++ t) : i = j ∧ s = t := by
  simp only [bytes, List.append_assoc, List.cons_append, List.nil_append] at h
  obtain ⟨hid, h⟩ := append_cons_inj (zero_not_mem_nameBytes hi.1) (zero_not_mem_nameBytes hj.1) h
  obtain ⟨hdomain, h⟩ := Domain.name_append_inj h
  obtain ⟨hpriority, h⟩ := List.append_inj h rfl
  obtain ⟨hsource, h⟩ :=
    append_cons_inj (zero_not_mem_nameBytes hi.2) (zero_not_mem_nameBytes hj.2) h
  obtain ⟨htemplate, h⟩ := append_cons_inj (not_mem_nameBytes _) (not_mem_nameBytes _) h
  have hword : i.priority.toUInt32 = j.priority.toUInt32 :=
    Function.LeftInverse.injective ofLittleEndian32_littleEndian32 hpriority
  refine ⟨?_, h⟩
  cases i
  cases j
  simp only [mk.injEq]
  exact ⟨nameBytes_injective hid, hdomain, congrArg Int32.ofUInt32 hword,
    nameBytes_injective hsource, nameBytes_injective htemplate⟩

end Imprint

namespace Rule

/-- The imprint of a rule. -/
def imprint (r : Rule) : Imprint where
  id := r.id
  domain := r.domain
  priority := r.priority
  source := r.matcher.source
  template := match r.replacement with
    | .template t => t
    | .phrase _ => ""

theorem revisionBytes_eq (r : Rule) : r.revisionBytes = r.imprint.bytes := by
  obtain ⟨id, domain, priority, matcher, template | phrase, description⟩ := r
  · simp [revisionBytes, Imprint.bytes, imprint]
  · have hempty : nameBytes "" = [] := rfl
    simp [revisionBytes, Imprint.bytes, imprint, hempty]

end Rule

/-! ## All rules of a book -/

theorem revisionBytes_eq_flatMap (rules : List Rule) :
    revisionBytes rules = (rules.map Rule.imprint).flatMap Imprint.bytes := by
  rw [revisionBytes, List.flatMap_map]
  exact congrArg (fun f => List.flatMap f rules) (funext Rule.revisionBytes_eq)

/-- Imprints are read back one after the other. -/
theorem imprints_eq_of_bytes {is js : List Imprint} (hi : ∀ i ∈ is, i.NulFree)
    (hj : ∀ j ∈ js, j.NulFree) (h : is.flatMap Imprint.bytes = js.flatMap Imprint.bytes) :
    is = js := by
  induction is generalizing js with
  | nil =>
    cases js with
    | nil => rfl
    | cons j js => exact absurd (List.append_eq_nil_iff.mp h.symm).1 j.bytes_ne_nil
  | cons i is ih =>
    cases js with
    | nil => exact absurd (List.append_eq_nil_iff.mp h).1 i.bytes_ne_nil
    | cons j js =>
      rw [List.flatMap_cons, List.flatMap_cons] at h
      obtain ⟨hi, his⟩ := List.forall_mem_cons.mp hi
      obtain ⟨hj, hjs⟩ := List.forall_mem_cons.mp hj
      obtain ⟨rfl, hrest⟩ := Imprint.bytes_append_inj hi hj h
      rw [ih his hjs hrest]

/-- **The bytes that are hashed of a list of rules determine their imprints**, and the other way
round. -/
theorem revisionBytes_eq_iff {rules rules' : List Rule} (h : ∀ r ∈ rules, r.imprint.NulFree)
    (h' : ∀ r ∈ rules', r.imprint.NulFree) :
    revisionBytes rules = revisionBytes rules' ↔
      rules.map Rule.imprint = rules'.map Rule.imprint := by
  rw [revisionBytes_eq_flatMap, revisionBytes_eq_flatMap]
  refine ⟨imprints_eq_of_bytes ?_ ?_, congrArg _⟩
  · exact List.forall_mem_map.mpr h
  · exact List.forall_mem_map.mpr h'

end SpokenMath
