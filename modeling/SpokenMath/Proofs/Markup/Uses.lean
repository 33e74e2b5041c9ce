import SpokenMath.Proofs.Markup.Place
import SpokenMath.Proofs.Rule.Command

/-!
# The uses of a command

What a use of a command is can be said without a search: a backslash, the name with no letter behind
it, perhaps a bracketed group, and braced groups, with nothing but spaces between them
(`CommandUse.Begins`). A group is **nested**: delimiters open and close in pairs in it, and what is
paired with a backslash does not count (`Occurrence.Nested`).

**Theorem (`find?_leftmost`).** The search finds the use at the leftmost place that has one, and
nothing if there is none. The arguments stand within the use, one behind the other, and the uses
that repeated searches find stand one behind the other in the text.

While the search reads a group it has some number of delimiters open. So what is proved along it is
that the rest of the group **descends** that many levels.
-/

namespace SpokenMath

open Text

namespace Occurrence

/-! ## Nested texts -/

/-- Delimiters open and close in pairs. What stands behind a backslash is none. -/
inductive Nested (opening closing : Char) : Text → Prop
  | nil : Nested opening closing []
  | single {c : Char} {t : Text} : c ≠ '\\' → c ≠ opening → c ≠ closing →
    Nested opening closing t → Nested opening closing (c :: t)
  | pair (c : Char) {t : Text} : Nested opening closing t → Nested opening closing ('\\' :: c :: t)
  | group {a t : Text} : Nested opening closing a → Nested opening closing t →
    Nested opening closing (opening :: (a ++ closing :: t))

/-- Nested texts with so many closing delimiters between them. -/
inductive Descends (opening closing : Char) : Nat → Text → Prop
  | level {a : Text} : Nested opening closing a → Descends opening closing 0 a
  | down {n : Nat} {a t : Text} : Nested opening closing a → Descends opening closing n t →
    Descends opening closing (n + 1) (a ++ closing :: t)

variable {opening closing c : Char} {n depth : Nat} {a b t u read rest gap : Text} {s : Stretch}

theorem Nested.append (ha : Nested opening closing a) (hb : Nested opening closing b) :
    Nested opening closing (a ++ b) := by
  induction ha with
  | nil => exact hb
  | single hslash hopen hclose _ ih => exact .single hslash hopen hclose ih
  | pair c _ ih => exact .pair c ih
  | group hinner _ _ ih =>
    rw [List.cons_append, List.append_assoc, List.cons_append]
    exact .group hinner ih

theorem Descends.prepend (ha : Nested opening closing a) (h : Descends opening closing n t) :
    Descends opening closing n (a ++ t) := by
  cases h with
  | level hb => exact .level (ha.append hb)
  | down hb hrest =>
    rw [← List.append_assoc]
    exact .down (ha.append hb) hrest

/-- An opening delimiter takes the first closing one with it. -/
theorem Descends.enclose (h : Descends opening closing (n + 1) t) :
    Descends opening closing n (opening :: t) := by
  obtain ⟨⟩ | ⟨ha, hrest⟩ := h
  cases hrest with
  | level hb => exact .level (.group ha hb)
  | @down m b u hb hrest =>
    have heq : ∀ a : Text, opening :: (a ++ closing :: (b ++ closing :: u)) =
        (opening :: (a ++ closing :: b)) ++ closing :: u := by simp
    rw [heq]
    exact .down (.group ha hb) hrest

/-! ## Reading a group -/

/-- What is read up to the closing delimiter descends one level for every other one that is open. -/
theorem descends_of_inside? (hdepth : depth = n + 1)
    (h : inside? opening closing depth read t = some s) :
    ∃ u, Descends opening closing n u ∧ t = u ++ closing :: s.rest ∧
      s.text = read.reverse ++ u := by
  fun_induction inside? opening closing depth read t generalizing n with
  | case1 => cases h
  | case2 => cases h
  | case3 depth read c t ih =>
    obtain ⟨u, hu, rfl, htext⟩ := ih hdepth h
    exact ⟨'\\' :: c :: u, Descends.prepend (.pair c .nil) hu, rfl, by simp [htext]⟩
  | case4 depth read t hend hpair ih =>
    obtain ⟨u, hu, rfl, htext⟩ := ih (congrArg Nat.succ hdepth) h
    exact ⟨opening :: u, hu.enclose, rfl, by simp [htext]⟩
  | case5 depth read t hend hpair hne hle =>
    obtain rfl := Option.some.inj h
    obtain rfl : n = 0 := by omega
    exact ⟨[], .level .nil, rfl, (List.append_nil _).symm⟩
  | case6 depth read t hend hpair hne hle ih =>
    obtain ⟨m, rfl⟩ : ∃ m, n = m + 1 := ⟨n - 1, by omega⟩
    obtain ⟨u, hu, rfl, htext⟩ := ih (n := m) (by omega) h
    exact ⟨closing :: u, .down .nil hu, rfl, by simp [htext]⟩
  | case7 depth read c t hend hpair hopen hclose ih =>
    have hslash : c ≠ '\\' := by
      rintro rfl
      cases t with
      | nil => exact hend rfl rfl
      | cons x t => exact hpair x t rfl rfl
    obtain ⟨u, hu, rfl, htext⟩ := ih hdepth h
    exact ⟨c :: u, Descends.prepend (.single hslash hopen hclose .nil) hu, rfl, by simp [htext]⟩

section

variable (hopen : opening ≠ '\\') (hclose : closing ≠ '\\') (hne : opening ≠ closing)

include hopen hclose hne

/-- The search for a closing delimiter goes on behind a nested text as it was. -/
theorem Nested.inside? (h : Nested opening closing a) (hdepth : 0 < depth) (read t : Text) :
    inside? opening closing depth read (a ++ t) =
      inside? opening closing depth (a.reverse ++ read) t := by
  induction h generalizing depth read t with
  | nil => rfl
  | single hslash hopen' hclose' _ ih =>
    rw [List.cons_append, inside?_cons hslash, if_neg hopen', if_neg hclose', ih hdepth]
    simp
  | pair c _ ih =>
    rw [List.cons_append, List.cons_append, Occurrence.inside?, ih hdepth]
    simp
  | @group a b _ _ iha ihb =>
    calc
      _ = Occurrence.inside? opening closing (depth + 1) (opening :: read)
          (a ++ closing :: (b ++ t)) := by
        rw [List.cons_append, List.append_assoc, List.cons_append, inside?_cons hopen, if_pos rfl]
      _ = Occurrence.inside? opening closing (depth + 1) (a.reverse ++ opening :: read)
          (closing :: (b ++ t)) := iha (Nat.succ_pos depth) _ _
      _ = Occurrence.inside? opening closing depth (closing :: (a.reverse ++ opening :: read))
          (b ++ t) := by
        rw [inside?_cons hclose, if_neg hne.symm, if_pos rfl, if_neg (by omega),
          Nat.add_sub_cancel]
      _ = _ := by
        rw [ihb hdepth]
        simp

/-- **A group is an opening delimiter, a nested text, and a closing delimiter.** -/
theorem group?_eq_some_iff : group? opening closing t = some ⟨a, rest⟩ ↔
    Nested opening closing a ∧ t = opening :: (a ++ closing :: rest) := by
  constructor
  · intro h
    cases t with
    | nil => cases h
    | cons c t =>
      rw [group?] at h
      split at h
      · next hc =>
        obtain ⟨u, hu, rfl, htext⟩ := descends_of_inside? (n := 0) rfl h
        obtain ⟨hnested⟩ := hu
        obtain rfl : a = u := htext
        exact ⟨hnested, by rw [hc.1]⟩
      · cases h
  · rintro ⟨ha, rfl⟩
    rw [group?, if_pos ⟨rfl, hopen⟩, ha.inside? hopen hclose hne Nat.one_pos, inside?_cons hclose,
      if_neg hne.symm, if_pos rfl, if_pos (Nat.le_refl 1)]
    simp

end

theorem brace?_eq_some_iff : group? '{' '}' t = some ⟨a, rest⟩ ↔
    Nested '{' '}' a ∧ t = '{' :: (a ++ '}' :: rest) :=
  group?_eq_some_iff (by decide) (by decide) (by decide)

theorem bracket?_eq_some_iff : group? '[' ']' t = some ⟨a, rest⟩ ↔
    Nested '[' ']' a ∧ t = '[' :: (a ++ ']' :: rest) :=
  group?_eq_some_iff (by decide) (by decide) (by decide)

/-! ## Spaces -/

theorem skipSpaces_append (h : ∀ c ∈ gap, c = ' ') (t : Text) :
    skipSpaces (gap ++ t) = skipSpaces t :=
  List.dropWhile_append_of_pos fun c hc => beq_iff_eq.mpr (h c hc)

theorem exists_skipSpaces (t : Text) :
    ∃ gap : Text, (∀ c ∈ gap, c = ' ') ∧ t = gap ++ skipSpaces t :=
  ⟨t.takeWhile (· == ' '), fun _ hc => by simpa using List.mem_takeWhile_imp hc,
    List.takeWhile_append_dropWhile.symm⟩

theorem skipSpaces_cons (h : c ≠ ' ') (t : Text) : skipSpaces (c :: t) = c :: t :=
  List.dropWhile_cons_of_neg (by simpa using h)

theorem skipSpaces_skipSpaces (t : Text) : skipSpaces (skipSpaces t) = skipSpaces t := by
  obtain ⟨gap, hgap, heq⟩ := exists_skipSpaces t
  calc
    skipSpaces (skipSpaces t) = skipSpaces (gap ++ skipSpaces t) := (skipSpaces_append hgap _).symm
    _ = skipSpaces t := by rw [← heq]

end Occurrence

namespace CommandUse

open Occurrence

/-! ## The shape of a use -/

/-- A bracketed group with spaces around it, or spaces only; its inside, and what follows. -/
inductive Bracketed : Text → Option Stretch → Text → Prop
  | absent {gap t : Text} : (∀ c ∈ gap, c = ' ') → Bracketed (gap ++ t) none t
  | present {gap a gap' t : Text} : (∀ c ∈ gap, c = ' ') → Nested '[' ']' a →
    (∀ c ∈ gap', c = ' ') →
    Bracketed (gap ++ '[' :: (a ++ ']' :: (gap' ++ t))) (some ⟨a, ']' :: (gap' ++ t)⟩) t

/-- Braced groups, each with nothing but spaces in front; their insides, and what follows. -/
inductive Braced : Text → List Stretch → Text → Prop
  | nil (t : Text) : Braced t [] t
  | cons {gap a t rest : Text} {args : List Stretch} : (∀ c ∈ gap, c = ' ') → Nested '{' '}' a →
    Braced t args rest → Braced (gap ++ '{' :: (a ++ '}' :: t)) (⟨a, '}' :: t⟩ :: args) rest

/-- The text begins with a use of the command: a backslash, the name with no letter behind it,
perhaps a bracketed group, and as many braced ones as the command has arguments. -/
inductive Begins (name : Text) (arity : Nat) : Text → CommandUse → Prop
  | intro {behind groups whole rest : Text} {optional : Option Stretch} {args : List Stretch} :
    (∀ c ∈ behind.head?, c.isAlpha = false) → Bracketed behind optional groups →
    Braced groups args rest → args.length = arity → '\\' :: (name ++ behind) = whole ++ rest →
    Begins name arity ('\\' :: (name ++ behind)) ⟨⟨whole, rest⟩, optional, args⟩

variable {name t u rest behind : Text} {arity n : Nat} {optional : Option Stretch}
  {args : List Stretch} {use : CommandUse}

theorem groups?_skipSpaces (t : Text) : groups? (n + 1) (skipSpaces t) = groups? (n + 1) t := by
  rw [groups?, groups?, skipSpaces_skipSpaces]

theorem groups?_eq_some_iff :
    groups? n t = some (args, rest) ↔ Braced t args rest ∧ args.length = n := by
  constructor
  · intro h
    induction n generalizing t args with
    | zero =>
      obtain ⟨rfl, rfl⟩ := Prod.mk.inj (Option.some.inj h)
      exact ⟨.nil t, rfl⟩
    | succ n ih =>
      simp only [groups?, Option.bind_eq_bind, Option.bind_eq_some_iff] at h
      obtain ⟨s, hs, ⟨ss, rest'⟩, hss, h⟩ := h
      obtain ⟨rfl, rfl⟩ := Prod.mk.inj (Option.some.inj h)
      obtain ⟨gap, hgap, heq⟩ := exists_skipSpaces t
      obtain ⟨hnested, hgroup⟩ := brace?_eq_some_iff.mp hs
      obtain ⟨hrest, hlength⟩ := ih hss
      rw [heq, hgroup]
      exact ⟨.cons hgap hnested hrest, congrArg Nat.succ hlength⟩
  · rintro ⟨h, rfl⟩
    induction h with
    | nil t => rfl
    | cons hgap hnested _ ih =>
      rw [List.length_cons, groups?, skipSpaces_append hgap, skipSpaces_cons (by decide),
        brace?_eq_some_iff.mpr ⟨hnested, rfl⟩]
      simp [ih]

theorem Bracketed.suffix (h : Bracketed t optional rest) : rest <:+ t := by
  cases h with
  | absent _ => exact List.suffix_append _ _
  | @present gap a gap' _ _ _ _ => exact ⟨gap ++ '[' :: (a ++ ']' :: gap'), by simp⟩

theorem Braced.suffix (h : Braced t args rest) : rest <:+ t := by
  induction h with
  | nil t => exact List.suffix_rfl
  | @cons gap a _ _ _ _ _ _ ih => exact ih.trans ⟨gap ++ '{' :: (a ++ ['}']), by simp⟩

/-- With an argument to come, the groups begin with a brace behind spaces. -/
theorem Braced.skipSpaces (h : Braced t args rest) (hne : args ≠ []) :
    ∃ r, skipSpaces t = '{' :: r := by
  cases h with
  | nil => exact absurd rfl hne
  | cons hgap _ _ => exact ⟨_, by rw [skipSpaces_append hgap, skipSpaces_cons (by decide)]⟩

theorem arguments?_eq_some_iff : arguments? (n + 1) t = some (optional, args, rest) ↔
    ∃ groups, Bracketed t optional groups ∧ Braced groups args rest ∧ args.length = n + 1 := by
  constructor
  · intro h
    obtain ⟨gap, hgap, heq⟩ := exists_skipSpaces t
    unfold arguments? at h
    cases hbracket : group? '[' ']' (skipSpaces t) with
    | none =>
      simp only [hbracket, Nat.succ_ne_zero, if_false, Option.map_eq_some_iff] at h
      obtain ⟨⟨args', rest'⟩, hgroups, h⟩ := h
      obtain ⟨rfl, rfl, rfl⟩ : none = optional ∧ args' = args ∧ rest' = rest := by simpa using h
      have habsent : Bracketed (gap ++ skipSpaces t) none (skipSpaces t) := .absent hgap
      rw [← heq] at habsent
      exact ⟨skipSpaces t, habsent, groups?_eq_some_iff.mp hgroups⟩
    | some s =>
      simp only [hbracket, Nat.succ_ne_zero, if_false, Option.map_eq_some_iff] at h
      obtain ⟨⟨args', rest'⟩, hgroups, h⟩ := h
      obtain ⟨rfl, rfl, rfl⟩ :
          some ⟨s.text, ']' :: s.rest⟩ = optional ∧ args' = args ∧ rest' = rest := by simpa using h
      obtain ⟨hnested, hgroup⟩ := bracket?_eq_some_iff.mp hbracket
      obtain ⟨gap', hgap', heq'⟩ := exists_skipSpaces s.rest
      have hpresent : Bracketed (gap ++ '[' :: (s.text ++ ']' :: (gap' ++ skipSpaces s.rest)))
          (some ⟨s.text, ']' :: (gap' ++ skipSpaces s.rest)⟩) (skipSpaces s.rest) :=
        .present hgap hnested hgap'
      rw [← heq', ← hgroup, ← heq] at hpresent
      exact ⟨skipSpaces s.rest, hpresent, groups?_eq_some_iff.mp hgroups⟩
  · rintro ⟨groups, hbracketed, hbraced, hlength⟩
    have hgroups := groups?_eq_some_iff.mpr ⟨hbraced, hlength⟩
    have hne : args ≠ [] := List.ne_nil_of_length_eq_add_one hlength
    cases hbracketed with
    | absent hgap =>
      obtain ⟨r, hr⟩ := hbraced.skipSpaces hne
      have hnone : group? '[' ']' ('{' :: r) = none := by rw [group?, if_neg (by decide)]
      rw [← groups?_skipSpaces, hr] at hgroups
      simp [arguments?, skipSpaces_append hgap, hr, hnone, hgroups]
    | @present gap a gap' _ hgap hnested hgap' =>
      have hsome : group? '[' ']' ('[' :: (a ++ ']' :: (gap' ++ groups))) =
          some ⟨a, gap' ++ groups⟩ := bracket?_eq_some_iff.mpr ⟨hnested, rfl⟩
      rw [← groups?_skipSpaces] at hgroups
      simp [arguments?, skipSpaces_append hgap, skipSpaces_cons, hsome, skipSpaces_append hgap',
        hgroups]

theorem behindName?_eq_some_iff : behindName? name t = some behind ↔
    t = name ++ behind ∧ ∀ c ∈ behind.head?, c.isAlpha = false := by
  constructor
  · intro h
    unfold behindName? at h
    split at h
    · next r hr =>
      split at h
      · cases h
      · next hletter =>
        obtain rfl := Option.some.inj h
        refine ⟨Text.dropPrefix?_eq_some_iff.mp hr, fun c hc => ?_⟩
        simpa [Option.mem_def.mp hc] using hletter
    · cases h
  · rintro ⟨rfl, hbehind⟩
    exact behindName?_append hbehind

theorem upTo_append (whole rest : Text) : upTo (whole ++ rest) rest = whole := by
  simp [upTo]

/-- **At the front of a text, a use is found exactly if there is one.** -/
theorem at?_eq_some_iff : at? name (n + 1) t = some use ↔ Begins name (n + 1) t use := by
  constructor
  · intro h
    unfold at? at h
    split at h
    · split at h
      · next t behind hbehind =>
        obtain ⟨⟨optional, args, rest⟩, harguments, rfl⟩ := Option.map_eq_some_iff.mp h
        obtain ⟨rfl, hletter⟩ := behindName?_eq_some_iff.mp hbehind
        obtain ⟨groups, hbracketed, hbraced, hlength⟩ := arguments?_eq_some_iff.mp harguments
        have hrest : rest <:+ '\\' :: (name ++ behind) :=
          (hbraced.suffix.trans hbracketed.suffix).trans ⟨'\\' :: name, rfl⟩
        obtain ⟨whole, hwhole⟩ := hrest
        have hupTo : upTo ('\\' :: (name ++ behind)) rest = whole := by rw [← hwhole, upTo_append]
        exact .intro hletter hbracketed hbraced hlength (by rw [hupTo, hwhole])
      · cases h
    · cases h
  · rintro ⟨hletter, hbracketed, hbraced, hlength, hwhole⟩
    have harguments := arguments?_eq_some_iff.mpr ⟨_, hbracketed, hbraced, hlength⟩
    rw [at?, behindName?_append hletter]
    simp only [harguments, Option.map_some]
    rw [hwhole, upTo_append]

/-! ## The leftmost use -/

/-- A use that begins at a place of the text. -/
def UsedAt (name : Text) (arity : Nat) (t s : Text) (use : CommandUse) : Prop :=
  Place t s ∧ Begins name arity s use

theorem Begins.backslash (h : Begins name arity t use) : ∃ r, t = '\\' :: r := by
  cases h
  exact ⟨_, rfl⟩

theorem not_begins_nil : ¬ Begins name arity [] use := fun h => by
  obtain ⟨r, hr⟩ := h.backslash
  cases hr

/-- Where no use is found at the front, the uses behind it remain. -/
theorem usedAt_cons {c : Char} (hat : at? name (n + 1) (c :: t) = none)
    (h : ∀ s, Place (c :: t) ('\\' :: s) ↔ '\\' :: s = c :: t ∨ Place u ('\\' :: s))
    (s : Text) (use : CommandUse) :
    UsedAt name (n + 1) (c :: t) s use ↔ UsedAt name (n + 1) u s use := by
  refine and_congr_left fun hbegins => ?_
  obtain ⟨r, rfl⟩ := hbegins.backslash
  rw [h r, or_iff_right]
  intro heq
  rw [heq, ← at?_eq_some_iff, hat] at hbegins
  cases hbegins

theorem usedAt_behind (hne : name ≠ []) (hletters : ∀ c ∈ name, c.isAlpha = true)
    (hat : at? name (n + 1) ('\\' :: t) = none) (hbehind : behindName? name t = some behind) :
    ∀ s use, UsedAt name (n + 1) ('\\' :: t) s use ↔ UsedAt name (n + 1) behind s use := by
  refine usedAt_cons hat fun s => ?_
  obtain ⟨rfl, -⟩ := behindName?_eq_some_iff.mp hbehind
  obtain ⟨c, name, rfl⟩ := List.exists_cons_of_ne_nil hne
  have hrest : ∀ d ∈ name, d ≠ '\\' := by
    intro d hd hslash
    have hletter := hletters d (List.mem_cons_of_mem c hd)
    rw [hslash] at hletter
    exact absurd hletter (by decide)
  rw [List.cons_append, place_pair, place_append_of_forall hrest fun hslash => hrest _ hslash rfl]

theorem usedAt_drop (hat : at? name (n + 1) ('\\' :: t) = none) :
    ∀ s use, UsedAt name (n + 1) ('\\' :: t) s use ↔ UsedAt name (n + 1) (t.drop 1) s use := by
  refine usedAt_cons hat fun s => ?_
  cases t with
  | nil => simp [place_backslash, place_nil]
  | cons c t => exact place_pair

/-- **The search finds the use at the leftmost place that has one.** -/
theorem find?_eq_some_iff (hne : name ≠ []) (hletters : ∀ c ∈ name, c.isAlpha = true) :
    find? name (n + 1) t = some use ↔ Leftmost (UsedAt name (n + 1) t) use := by
  fun_induction find? name (n + 1) t with
  | case1 =>
    constructor
    · intro h
      cases h
    · rintro ⟨s, ⟨hplace, hbegins⟩, -⟩
      rw [place_nil.mp hplace] at hbegins
      exact (not_begins_nil hbegins).elim
  | case2 t use' hat =>
    have hfront : UsedAt name (n + 1) ('\\' :: t) ('\\' :: t) use' :=
      ⟨.refl _, at?_eq_some_iff.mp hat⟩
    rw [leftmost_iff_of_front (fun _ _ h => h.1.suffix) hfront, ← hat, at?_eq_some_iff]
    exact (and_iff_right (.refl _)).symm
  | case3 t hat behind hbehind ih =>
    exact ih.trans (leftmost_congr (usedAt_behind hne hletters hat hbehind)).symm
  | case4 t hat hbehind ih => exact ih.trans (leftmost_congr (usedAt_drop hat)).symm
  | case5 c t hslash ih =>
    have hat : at? name (n + 1) (c :: t) = none := by
      rw [at?]
      rintro _ ⟨rfl, -⟩
      exact hslash rfl
    exact ih.trans (leftmost_congr (usedAt_cons hat fun s => place_cons hslash)).symm

/-! ## Where the parts of a use stand -/

/-- The bracketed and the braced arguments, in order. -/
def parts (use : CommandUse) : List Stretch := use.optional.toList ++ use.args

open Stretch

theorem Bracketed.inOrder (h : Bracketed t optional rest) : InOrder t rest optional.toList := by
  cases h with
  | absent _ => exact inOrder_nil _ _
  | present _ _ _ => exact inOrder_delimited (List.suffix_append _ _) _ _ _ _

theorem Braced.inOrder (h : Braced t args rest) : InOrder t rest args := by
  induction h with
  | nil t => exact inOrder_nil _ _
  | @cons gap a t rest args _ _ hbraced ih =>
    refine (inOrder_delimited List.suffix_rfl gap a '{' '}').append ih ?_ hbraced.suffix
    exact ⟨gap ++ '{' :: (a ++ ['}']), by simp⟩

/-- The parts of a use stand in order behind its backslash. -/
theorem Begins.inOrder (h : Begins name arity t use) : InOrder t use.whole.rest use.parts := by
  obtain @⟨behind, groups, whole, rest, optional, args, -, hbracketed, hbraced, -, -⟩ := h
  have hparts := hbracketed.inOrder.append hbraced.inOrder hbracketed.suffix hbraced.suffix
  exact {
    stand := fun s hs => by
      obtain ⟨front, hpos, heq⟩ := hparts.stand s hs
      refine ⟨'\\' :: (name ++ front), ?_, by rw [heq]; simp⟩
      rw [Text.size_cons, Text.size_append]
      omega
    behind := hparts.behind
    apart := hparts.apart }

theorem Begins.eq_whole (h : Begins name arity t use) :
    t = use.whole.text ++ use.whole.rest := by
  cases h
  assumption

/-- **The parts of a use stand within it, one behind the other.** -/
theorem Begins.frames (h : Begins name arity t use) (before : Text) :
    use.whole.Frames (before ++ t) before.size use.parts := by
  refine h.inOrder.frames h.eq_whole ?_ before
  obtain @⟨behind, groups, whole, rest, optional, args, -, hbracketed, hbraced, -, hwhole⟩ := h
  -- What follows the use is a part of what follows the name.
  have hrest := Text.size_le_of_suffix (hbraced.suffix.trans hbracketed.suffix)
  have hsize := congrArg Text.size hwhole
  have hpos := Char.utf8Size_pos '\\'
  simp only [Text.size_cons, Text.size_append] at hsize ⊢
  omega

/-! ## One use after the other -/

/-- The uses that are found when every search goes on behind the last use. -/
def uses (name : Text) (arity : Nat) (t : Text) : List CommandUse :=
  match _h : find? name arity t with
  | none => []
  | some use => use :: uses name arity use.whole.rest
termination_by t.length
decreasing_by exact (length_find? _h).1

section

variable (hne : name ≠ []) (hletters : ∀ c ∈ name, c.isAlpha = true)

include hne hletters

theorem frames_of_find? (before : Text) (h : find? name (n + 1) t = some use) :
    use.whole.Frames (before ++ t) before.size use.parts ∧
      ∃ front, t = front ++ (use.whole.text ++ use.whole.rest) := by
  obtain ⟨s, ⟨hplace, hbegins⟩, -⟩ := (find?_eq_some_iff hne hletters).mp h
  obtain ⟨front, -, rfl⟩ := hplace
  exact ⟨(hbegins.frames (before ++ front)).of_append, front,
    congrArg (front ++ ·) hbegins.eq_whole⟩

/-- **The uses that are found stand one behind the other.** -/
theorem ordered_uses (before t : Text) :
    (∀ use ∈ uses name (n + 1) t,
      use.whole.Frames (before ++ t) before.size use.parts) ∧
      (uses name (n + 1) t).Pairwise fun a b =>
        (a.whole.span (before ++ t).size).2 ≤ (b.whole.span (before ++ t).size).1 := by
  fun_induction uses name (n + 1) t generalizing before with
  | case1 t hnone => exact ⟨nofun, .nil⟩
  | case2 t use huse ih =>
    obtain ⟨hframes, front, heq⟩ := frames_of_find? hne hletters before huse
    obtain ⟨hall, hpairwise⟩ := ih (before ++ (front ++ use.whole.text))
    have htext : (before ++ (front ++ use.whole.text)) ++ use.whole.rest = before ++ t := by
      rw [List.append_assoc, List.append_assoc, ← heq]
    rw [htext] at hall hpairwise
    have hend : (use.whole.span (before ++ t).size).2 =
        (before ++ (front ++ use.whole.text)).size := by
      rw [← htext, span, Text.size_append, Nat.add_sub_cancel]
    have hstart : before.size ≤ (before ++ (front ++ use.whole.text)).size := by
      rw [Text.size_append]
      exact Nat.le_add_right _ _
    refine ⟨List.forall_mem_cons.mpr ⟨hframes, fun b hb => (hall b hb).mono hstart⟩, ?_⟩
    exact List.pairwise_cons.mpr ⟨fun b hb => hend ▸ (hall b hb).behind, hpairwise⟩

/-- **The search finds the leftmost use, with its parts in order, and nothing only where there is
nothing; and the uses that repeated searches find stand one behind the other.** -/
theorem find?_leftmost {arity : Nat} (harity : 1 ≤ arity) (before t : Text) :
    (∀ use, find? name arity t = some use ↔ Leftmost (UsedAt name arity t) use) ∧
      (find? name arity t = none ↔ ∀ s use, ¬ UsedAt name arity t s use) ∧
      (∀ use, find? name arity t = some use →
        use.whole.Frames (before ++ t) before.size use.parts) ∧
      (∀ use ∈ uses name arity t, use.whole.Frames (before ++ t) before.size use.parts) ∧
      (uses name arity t).Pairwise fun a b =>
        (a.whole.span (before ++ t).size).2 ≤ (b.whole.span (before ++ t).size).1 := by
  obtain ⟨n, rfl⟩ : ∃ n, arity = n + 1 := ⟨arity - 1, by omega⟩
  obtain ⟨hall, hpairwise⟩ := ordered_uses hne hletters before t
  exact ⟨fun use => find?_eq_some_iff hne hletters,
    eq_none_iff_of_leftmost (fun _ _ h => h.1.suffix) fun _ => find?_eq_some_iff hne hletters,
    fun use huse => (frames_of_find? hne hletters before huse).1, hall, hpairwise⟩

end

/-- The name stands twice, and only the second time with both its arguments. -/
def twoFractions : Text := braced "\\frac‹1› \\frac[n]‹2› ‹\\››"

def secondFraction : CommandUse where
  whole := ⟨braced "\\frac[n]‹2› ‹\\››", []⟩
  optional := some ⟨['n'], braced "]‹2› ‹\\››"⟩
  args := [⟨['2'], braced "› ‹\\››"⟩, ⟨braced "\\›", braced "›"⟩]

theorem find?_leftmost_secondFraction :
    find? "frac".toList 2 twoFractions = some secondFraction ∧
      Leftmost (UsedAt "frac".toList 2 twoFractions) secondFraction ∧
      secondFraction.whole.Frames ("y = ".toList ++ twoFractions) 4 secondFraction.parts ∧
      (secondFraction.whole :: secondFraction.parts).map
        (·.span (Text.size ("y = ".toList ++ twoFractions))) =
          [(13, 29), (19, 20), (22, 23), (26, 28)] := by
  have hfind : find? "frac".toList 2 twoFractions = some secondFraction := by decide +kernel
  have hletters : "frac".toList.all Char.isAlpha = true := by decide
  have hsize : Text.size "y = ".toList = 4 := by decide
  obtain ⟨hleftmost, -, hframes, -⟩ := @find?_leftmost "frac".toList (by decide)
    (List.all_eq_true.mp hletters) 2 (by decide) "y = ".toList twoFractions
  rw [hsize] at hframes
  exact ⟨hfind, (hleftmost _).mp hfind, hframes _ hfind, by decide +kernel⟩

end CommandUse

/-! ## What a rule replaces -/

/-- The text with its uses replaced. -/
def Rule.replaceUses (spoken : CommandUse → Text) : Text → List CommandUse → Text
  | t, [] => t
  | t, use :: uses =>
    inFront t use.whole ++ spoken use ++ replaceUses spoken use.whole.rest uses

/-- **A rule for a command replaces the uses that repeated searches find.** -/
theorem Rule.rewriteCommands_eq (name : Text) (arity : Nat) (render : Captures → Text) (t : Text) :
    rewriteCommands name arity render t =
      replaceUses (fun use => render {
        groups := use.args.map fun arg => rewriteCommands name arity render arg.text
        optional := use.optional.map (·.text) }) t (CommandUse.uses name arity t) := by
  fun_induction CommandUse.uses name arity t with
  | case1 t hnone =>
    rw [rewriteCommands]
    split
    · rfl
    · next hsome =>
      rw [hnone] at hsome
      cases hsome
  | case2 t use huse ih =>
    rw [rewriteCommands]
    split
    · next hnone =>
      rw [huse] at hnone
      cases hnone
    · next use' huse' =>
      obtain rfl := Option.some.inj (huse.symm.trans huse')
      have hgroups : (use.args.attach.map fun arg =>
          rewriteCommands name arity render arg.1.text) =
            use.args.map fun arg => rewriteCommands name arity render arg.text :=
        List.attach_map_val (f := fun arg : Stretch => rewriteCommands name arity render arg.text)
      rw [ih, replaceUses, ← hgroups]

end SpokenMath
