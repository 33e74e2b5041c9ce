import SpokenMath.Proofs.Lists
import SpokenMath.Proofs.Markup.Place
import Mathlib.Data.List.Infix
import Mathlib.Data.List.TakeWhile

/-!
# Environments and their ends

An environment ends at the first closing tag of its name at which more closing than opening tags of
this name have been seen behind its own (`EnvironmentUse.Closes`). That is a matter of counting
parts of the text, and the tags of other environments do not count, nor does it matter how these are
nested in it.

**Theorem (`find?_leftmost_terminated`).** In a text whose opening tags have no backslash in their
names, the search finds the environment of the leftmost opening tag that has a listed name and an
end, and nothing if there is none. A name ends at the next brace, so a listed name with a closing
brace in it is not found (`find?_bracedName`).

While the search walks through a body, it has some number of environments of the same name open. So
what is proved along it is that the closing tags outweigh the opening ones by as many.
-/

namespace SpokenMath

open Text

/-! ## Counting words -/

/-- How often a word stands in a text. -/
def Text.occurrences (word t : Text) : Nat := (List.tails t).countP (Text.startsWith word)

namespace Text

variable {word s t u v : Text} {c : Char}

theorem startsWith_iff : startsWith word t = true ↔ word <+: t := by
  rw [startsWith, Option.isSome_iff_exists]
  exact exists_congr fun rest => dropPrefix?_eq_some_iff.trans eq_comm

theorem occurrences_cons : occurrences word (c :: t) =
    occurrences word t + if startsWith word (c :: t) then 1 else 0 := by
  rw [occurrences, List.tails_cons, List.countP_cons, occurrences]

/-- What begins with a backslash begins nowhere else. -/
theorem occurrences_append_of_forall (hs : ∀ c ∈ s, c ≠ '\\') :
    occurrences ('\\' :: word) (s ++ t) = occurrences ('\\' :: word) t := by
  induction s with
  | nil => rfl
  | cons c s ih =>
    obtain ⟨hc, hs⟩ := List.forall_mem_cons.mp hs
    have hnone : startsWith ('\\' :: word) (c :: (s ++ t)) = false := by
      rw [Bool.eq_false_iff, Ne, startsWith_iff]
      exact fun h => hc (List.cons_prefix_cons.mp h).1.symm
    rw [List.cons_append, occurrences_cons, hnone, ih hs]
    rfl

/-- A tag counts where it stands, and nothing begins within it. -/
theorem occurrences_tag_append (hs : ∀ c ∈ s, c ≠ '\\') :
    occurrences ('\\' :: word) ('\\' :: s ++ t) =
      occurrences ('\\' :: word) t +
        if startsWith ('\\' :: word) ('\\' :: s ++ t) then 1 else 0 := by
  rw [List.cons_append, occurrences_cons, occurrences_append_of_forall hs]

theorem suffix_append_of_forall (hs : ∀ c ∈ s, c ≠ '\\') :
    '\\' :: u <:+ s ++ t ↔ '\\' :: u <:+ t := by
  induction s with
  | nil => rfl
  | cons c s ih =>
    obtain ⟨hc, hs⟩ := List.forall_mem_cons.mp hs
    rw [List.cons_append, List.suffix_cons_iff, ih hs, or_iff_right]
    exact fun heq => hc (List.cons.inj heq).1.symm

/-- A word that begins with a backslash is not cut in two at another backslash. -/
theorem split_of_forall_ne (hs : ∀ c ∈ s, c ≠ '\\') (h : '\\' :: (s ++ t) = u ++ '\\' :: v) :
    u = [] ∨ ∃ u', u = '\\' :: (s ++ u') := by
  cases u with
  | nil => exact .inl rfl
  | cons c u =>
    obtain ⟨rfl, heq⟩ := List.cons.inj h
    refine .inr ?_
    rcases List.append_eq_append_iff.mp heq with ⟨u', rfl, -⟩ | ⟨w, rfl, hw⟩
    · exact ⟨u', rfl⟩
    · cases w with
      | nil => exact ⟨[], by simp⟩
      | cons d w =>
        obtain ⟨rfl, -⟩ := List.cons.inj hw
        exact absurd rfl (hs '\\' (by simp))

end Text

namespace EnvironmentUse

variable {name t u b rest behind read : Text} {names : List Text} {ahead ahead' depth : Nat}
  {c : Char} {s : Stretch} {use : EnvironmentUse}

/-! ## Tags -/

/-- An opening tag without its backslash. -/
def opener (name : Text) : Text := ['b', 'e', 'g', 'i', 'n', '{'] ++ name ++ ['}']

/-- A closing tag without its backslash. -/
def closer (name : Text) : Text := ['e', 'n', 'd', '{'] ++ name ++ ['}']

theorem opening_eq (name : Text) : Tag.opening name = '\\' :: opener name := rfl

theorem closing_eq (name : Text) : Tag.closing name = '\\' :: closer name := rfl

theorem forall_opener (hname : '\\' ∉ name) : ∀ c ∈ opener name, c ≠ '\\' := by
  rintro c hc rfl
  simp [opener, hname] at hc

theorem forall_closer (hname : '\\' ∉ name) : ∀ c ∈ closer name, c ≠ '\\' := by
  rintro c hc rfl
  simp [closer, hname] at hc

theorem not_opening_prefix_closing (name t : Text) :
    ¬ Tag.opening name <+: Tag.closing name ++ t := by
  rintro ⟨r, hr⟩
  cases hr

theorem not_closing_prefix_opening (name t : Text) :
    ¬ Tag.closing name <+: Tag.opening name ++ t := by
  rintro ⟨r, hr⟩
  cases hr

section

variable (hname : '\\' ∉ name) (t : Text)

include hname

theorem occurrences_opening_append :
    occurrences (Tag.opening name) (Tag.opening name ++ t) =
      occurrences (Tag.opening name) t + 1 := by
  have hstart := startsWith_iff.mpr (List.prefix_append (Tag.opening name) t)
  rw [opening_eq] at hstart ⊢
  rw [occurrences_tag_append (forall_opener hname), if_pos hstart]

theorem occurrences_closing_append :
    occurrences (Tag.closing name) (Tag.closing name ++ t) =
      occurrences (Tag.closing name) t + 1 := by
  have hstart := startsWith_iff.mpr (List.prefix_append (Tag.closing name) t)
  rw [closing_eq] at hstart ⊢
  rw [occurrences_tag_append (forall_closer hname), if_pos hstart]

theorem occurrences_closing_opening :
    occurrences (Tag.closing name) (Tag.opening name ++ t) =
      occurrences (Tag.closing name) t := by
  have hstart := mt startsWith_iff.mp (not_closing_prefix_opening name t)
  rw [opening_eq, closing_eq] at hstart ⊢
  rw [occurrences_tag_append (forall_opener hname), if_neg hstart, Nat.add_zero]

theorem occurrences_opening_closing :
    occurrences (Tag.opening name) (Tag.closing name ++ t) =
      occurrences (Tag.opening name) t := by
  have hstart := mt startsWith_iff.mp (not_opening_prefix_closing name t)
  rw [opening_eq, closing_eq] at hstart ⊢
  rw [occurrences_tag_append (forall_closer hname), if_neg hstart, Nat.add_zero]

end

/-! ## Where an environment ends -/

/-- More closing than opening tags of the name have been seen, by more than so many. -/
def Outweighs (name : Text) (ahead : Nat) (seen : Text) : Prop :=
  occurrences (Tag.opening name) seen + ahead < occurrences (Tag.closing name) seen

/-- The first closing tag of the name at which the closing ones outweigh the opening ones stands
between `b` and `rest`. -/
structure Closes (name : Text) (ahead : Nat) (t b rest : Text) : Prop where
  split : t = b ++ (Tag.closing name ++ rest)
  outweighs : Outweighs name ahead (b ++ Tag.closing name)
  first : ∀ b' rest', t = b' ++ (Tag.closing name ++ rest') → b'.length < b.length →
    ¬ Outweighs name ahead (b' ++ Tag.closing name)

/-- An opening tag counts as one more environment that is open. -/
theorem outweighs_opening (hname : '\\' ∉ name) (ahead : Nat) (t : Text) :
    Outweighs name ahead (Tag.opening name ++ t) ↔ Outweighs name (ahead + 1) t := by
  rw [Outweighs, Outweighs, occurrences_opening_append hname, occurrences_closing_opening hname]
  omega

/-- A closing tag counts as one environment that is no longer open. -/
theorem outweighs_closing (hname : '\\' ∉ name) (ahead : Nat) (t : Text) :
    Outweighs name (ahead + 1) (Tag.closing name ++ t) ↔ Outweighs name ahead t := by
  rw [Outweighs, Outweighs, occurrences_closing_append hname, occurrences_opening_closing hname]
  omega

theorem outweighs_cons (hopen : ¬ Tag.opening name <+: c :: t)
    (hclose : ¬ Tag.closing name <+: c :: t) :
    Outweighs name ahead (c :: t) ↔ Outweighs name ahead t := by
  rw [Outweighs, Outweighs, occurrences_cons, occurrences_cons,
    if_neg (mt startsWith_iff.mp hopen), if_neg (mt startsWith_iff.mp hclose)]
  rfl

/-- A closing tag alone outweighs nothing that is open. -/
theorem outweighs_closing_self (hname : '\\' ∉ name) :
    Outweighs name ahead (Tag.closing name) ↔ ahead = 0 := by
  have hopen := occurrences_opening_closing hname []
  have hclose := occurrences_closing_append hname []
  rw [List.append_nil] at hopen hclose
  have hnil : ∀ tag : Text, occurrences ('\\' :: tag) [] = 0 := fun _ => rfl
  rw [Outweighs, hopen, hclose, opening_eq, closing_eq, hnil, hnil]
  omega

/-- **The search may go on behind what it has read**, if no end begins in it and it counts as
`ahead'` does. -/
theorem closes_append
    (hbegin : ∀ b rest, u ++ t = b ++ (Tag.closing name ++ rest) →
      Outweighs name ahead (b ++ Tag.closing name) → ∃ b', b = u ++ b')
    (hcount : ∀ b rest, t = b ++ (Tag.closing name ++ rest) →
      (Outweighs name ahead (u ++ (b ++ Tag.closing name)) ↔
        Outweighs name ahead' (b ++ Tag.closing name))) :
    Closes name ahead (u ++ t) b rest ↔ ∃ b', b = u ++ b' ∧ Closes name ahead' t b' rest := by
  have hsplit : ∀ b rest : Text, u ++ t = (u ++ b) ++ (Tag.closing name ++ rest) ↔
      t = b ++ (Tag.closing name ++ rest) := by
    intro b rest
    rw [List.append_assoc, List.append_cancel_left_eq]
  constructor
  · rintro ⟨htext, houtweighs, hfirst⟩
    obtain ⟨b, rfl⟩ := hbegin _ _ htext houtweighs
    have htext' := (hsplit b rest).mp htext
    rw [List.append_assoc, hcount b rest htext'] at houtweighs
    refine ⟨b, rfl, htext', houtweighs, fun b' rest' heq hlt => ?_⟩
    have hnot := hfirst (u ++ b') rest' ((hsplit b' rest').mpr heq) (by simpa using hlt)
    rwa [List.append_assoc, hcount b' rest' heq] at hnot
  · rintro ⟨b, rfl, htext, houtweighs, hfirst⟩
    refine ⟨(hsplit b rest).mpr htext, ?_, fun b' rest' heq hlt hout => ?_⟩
    · rwa [List.append_assoc, hcount b rest htext]
    · obtain ⟨b'', rfl⟩ := hbegin b' rest' heq hout
      have heq' := (hsplit b'' rest').mp heq
      rw [List.append_assoc, hcount b'' rest' heq'] at hout
      exact hfirst b'' rest' heq' (by simpa using hlt) hout

theorem not_closes_nil : ¬ Closes name ahead [] b rest := fun h => by
  simpa [closing_eq] using h.split

theorem closes_opening (hname : '\\' ∉ name) :
    Closes name ahead (Tag.opening name ++ t) b rest ↔
      ∃ b', b = Tag.opening name ++ b' ∧ Closes name (ahead + 1) t b' rest := by
  refine closes_append (fun b rest heq _ => ?_) fun b rest _ => outweighs_opening hname _ _
  rcases split_of_forall_ne (forall_opener hname) heq with rfl | hbehind
  · exact absurd ⟨_, heq.symm⟩ (not_closing_prefix_opening _ _)
  · exact hbehind

theorem closes_closing (hname : '\\' ∉ name) :
    Closes name (ahead + 1) (Tag.closing name ++ t) b rest ↔
      ∃ b', b = Tag.closing name ++ b' ∧ Closes name ahead t b' rest := by
  refine closes_append (fun b rest heq hout => ?_) fun b rest _ => outweighs_closing hname _ _
  rcases split_of_forall_ne (forall_closer hname) heq with rfl | hbehind
  · cases (outweighs_closing_self hname).mp hout
  · exact hbehind

/-- The last environment that is open ends at the first closing tag. -/
theorem closes_closing_zero (hname : '\\' ∉ name) :
    Closes name 0 (Tag.closing name ++ t) b rest ↔ b = [] ∧ t = rest := by
  have hself := (outweighs_closing_self hname).mpr rfl
  constructor
  · rintro ⟨htext, -, hfirst⟩
    cases b with
    | nil => exact ⟨rfl, List.append_cancel_left htext⟩
    | cons c b => exact absurd hself (hfirst [] t rfl (Nat.succ_pos _))
  · rintro ⟨rfl, rfl⟩
    exact ⟨rfl, hself, nofun⟩

theorem closes_cons (hopen : ¬ Tag.opening name <+: c :: t)
    (hclose : ¬ Tag.closing name <+: c :: t) :
    Closes name ahead (c :: t) b rest ↔ ∃ b', b = c :: b' ∧ Closes name ahead t b' rest := by
  refine closes_append (u := [c]) (fun b rest heq _ => ?_) fun b rest heq => ?_
  · cases b with
    | nil => exact absurd ⟨_, heq.symm⟩ hclose
    | cons d b => exact ⟨b, congrArg (· :: b) (List.cons.inj heq).1.symm⟩
  · have hprefix : c :: (b ++ Tag.closing name) <+: c :: t := by
      rw [heq, ← List.append_assoc]
      exact List.prefix_append (c :: (b ++ Tag.closing name)) rest
    exact outweighs_cons (fun h => hopen (h.trans hprefix)) fun h => hclose (h.trans hprefix)

/-- **A body ends where its environment does.** -/
theorem body?_eq_some_iff (hname : '\\' ∉ name) (hdepth : depth = ahead + 1) :
    body? name depth read t = some s ↔
      ∃ b, Closes name ahead t b s.rest ∧ s.text = read.reverse ++ b := by
  have htag : ∀ (tag read : Text) (P : Text → Prop),
      (∃ b, P b ∧ s.text = (tag.reverse ++ read).reverse ++ b) ↔
        ∃ b, (∃ b', b = tag ++ b' ∧ P b') ∧ s.text = read.reverse ++ b := by
    intro tag read P
    constructor
    · rintro ⟨b, hb, htext⟩
      exact ⟨tag ++ b, ⟨b, rfl, hb⟩, by simpa using htext⟩
    · rintro ⟨_, ⟨b, rfl, hb⟩, htext⟩
      exact ⟨b, hb, by simpa using htext⟩
  fun_induction body? name depth read t generalizing ahead with
  | case1 =>
    constructor
    · intro h
      cases h
    · rintro ⟨b, hb, -⟩
      exact (not_closes_nil hb).elim
  | case2 depth read c t behind hopen ih =>
    refine (ih (congrArg Nat.succ hdepth)).trans ((htag _ _ _).trans ?_)
    rw [Text.dropPrefix?_eq_some_iff.mp hopen]
    simp only [closes_opening hname]
  | case3 depth read c t hopen behind hclose hle =>
    obtain rfl : ahead = 0 := by omega
    rw [Text.dropPrefix?_eq_some_iff.mp hclose]
    simp only [closes_closing_zero hname]
    constructor
    · rintro ⟨⟩
      exact ⟨[], ⟨rfl, rfl⟩, (List.append_nil _).symm⟩
    · rintro ⟨_, ⟨rfl, rfl⟩, htext⟩
      rw [List.append_nil] at htext
      rw [← htext]
  | case4 depth read c t hopen behind hclose hle ih =>
    obtain ⟨ahead, rfl⟩ : ∃ m, ahead = m + 1 := ⟨ahead - 1, by omega⟩
    refine (@ih ahead (by omega)).trans ((htag _ _ _).trans ?_)
    rw [Text.dropPrefix?_eq_some_iff.mp hclose]
    simp only [closes_closing hname]
  | case5 depth read c t hopen hclose ih =>
    have hnot : ∀ tag : Text, dropPrefix? tag (c :: t) = none → ¬ tag <+: c :: t := by
      intro tag hnone hprefix
      rw [← startsWith_iff, startsWith, hnone] at hprefix
      cases hprefix
    refine (ih hdepth).trans ((htag [c] read _).trans ?_)
    simp only [closes_cons (hnot _ hopen) (hnot _ hclose), List.singleton_append]

/-! ## The leftmost environment -/

/-- The environment of this name whose body `b` begins with `t` and ends with `rest` behind its
closing tag. -/
def enclosing (name t b rest : Text) : EnvironmentUse where
  whole := ⟨Tag.opening name ++ b ++ Tag.closing name, rest⟩
  name := ⟨name, '}' :: t⟩
  body := ⟨b, Tag.closing name ++ rest⟩

/-- The text begins with an environment that has one of these names and an end. The name ends at the
first brace, so it has none. -/
inductive Opens (names : List Text) : Text → EnvironmentUse → Prop
  | intro {name t b rest : Text} : name ∈ names → '}' ∉ name → Closes name 0 t b rest →
    Opens names (Tag.opening name ++ t) (enclosing name t b rest)

/-- An environment that begins somewhere in the text. -/
def FoundAt (names : List Text) (t s : Text) (use : EnvironmentUse) : Prop :=
  s <:+ t ∧ Opens names s use

/-- The names in opening tags have no backslash. -/
def PlainNames (t : Text) : Prop :=
  ∀ name rest, '}' ∉ name → Tag.opening name ++ rest <:+ t → '\\' ∉ name

theorem PlainNames.of_suffix (h : PlainNames t) (hu : u <:+ t) : PlainNames u :=
  fun name rest hname hsuffix => h name rest hname (hsuffix.trans hu)

theorem opening_append (name t : Text) :
    Tag.opening name ++ t = Tag.openingMark ++ (name ++ '}' :: t) := by
  simp [Tag.opening]

theorem takeWhile_brace (hname : '}' ∉ name) (t : Text) :
    (name ++ '}' :: t).takeWhile (· != '}') = name :=
  takeWhile_append_of_head (fun _ hc => bne_iff_ne.mpr fun heq => hname (heq ▸ hc)) (by simp)

/-- What stands up to the first brace is determined by the text. -/
theorem append_brace_inj {name name' t t' : Text} (hname : '}' ∉ name) (hname' : '}' ∉ name')
    (h : name ++ '}' :: t = name' ++ '}' :: t') : name = name' ∧ t = t' := by
  have htake := congrArg (List.takeWhile (· != '}')) h
  rw [takeWhile_brace hname, takeWhile_brace hname'] at htake
  subst htake
  exact ⟨rfl, (List.cons.inj (List.append_cancel_left h)).2⟩

/-- The first brace is in front of what is left behind characters other than braces. -/
theorem eq_append_brace {brace : Char} {after : Text}
    (h : behind.dropWhile (· != '}') = brace :: after) :
    brace = '}' ∧ '}' ∉ behind.takeWhile (· != '}') ∧
      behind = behind.takeWhile (· != '}') ++ '}' :: after := by
  have hhead := List.head?_dropWhile_not (· != '}') behind
  simp only [h, List.head?_cons, bne_eq_false_iff_eq] at hhead
  subst hhead
  refine ⟨rfl, fun hmem => ?_, ?_⟩
  · simpa using List.mem_takeWhile_imp hmem
  · rw [← h, List.takeWhile_append_dropWhile]

theorem exists_append_brace (h : '}' ∈ behind) :
    '}' ∉ behind.takeWhile (· != '}') ∧
      ∃ after, behind = behind.takeWhile (· != '}') ++ '}' :: after := by
  cases hdrop : behind.dropWhile (· != '}') with
  | nil => simpa using List.dropWhile_eq_nil_iff.mp hdrop _ h
  | cons brace after =>
    obtain ⟨-, hname, heq⟩ := eq_append_brace hdrop
    exact ⟨hname, after, heq⟩

/-- Whether names are plain is seen at the marks. -/
theorem plainNames_iff : PlainNames t ↔ ∀ s ∈ t.tails, ∀ behind ∈ dropPrefix? Tag.openingMark s,
    '}' ∈ behind → '\\' ∉ behind.takeWhile (· != '}') := by
  constructor
  · intro h s hs behind hbehind hbrace
    obtain ⟨hname, rest, heq⟩ := exists_append_brace hbrace
    refine h _ rest hname ?_
    rw [opening_append, ← heq, ← Text.dropPrefix?_eq_some_iff.mp hbehind]
    exact (List.mem_tails _ _).mp hs
  · intro h name rest hname hsuffix
    rw [opening_append] at hsuffix
    have hslash := h _ ((List.mem_tails _ _).mpr hsuffix) _ (dropPrefix?_append _ _) (by simp)
    rwa [takeWhile_brace hname] at hslash

instance : Decidable (PlainNames t) := decidable_of_iff _ plainNames_iff.symm

/-- **Behind an opening tag, an environment is found if its name is listed and it ends.** -/
theorem opens_opening_iff (hname : '}' ∉ name) : Opens names (Tag.opening name ++ t) use ↔
    name ∈ names ∧ ∃ b rest, Closes name 0 t b rest ∧ use = enclosing name t b rest := by
  constructor
  · generalize htext : Tag.opening name ++ t = text
    rintro ⟨hmem, hname', hcloses⟩
    rw [opening_append, opening_append, List.append_cancel_left_eq] at htext
    obtain ⟨rfl, rfl⟩ := append_brace_inj hname hname' htext
    exact ⟨hmem, _, _, hcloses, rfl⟩
  · rintro ⟨hmem, b, rest, hcloses, rfl⟩
    exact .intro hmem hname hcloses

theorem Opens.backslash (h : Opens names t use) : ∃ r, t = '\\' :: r := by
  cases h
  exact ⟨_, rfl⟩

theorem Opens.mark (h : Opens names t use) : Tag.openingMark <+: t := by
  obtain @⟨name, t, b, rest, -, -, -⟩ := h
  exact ⟨_, (opening_append name t).symm⟩

theorem Opens.brace (h : Opens names t use) : '}' ∈ t := by
  obtain @⟨name, t, b, rest, -, -, -⟩ := h
  simp [opening_append]

/-- A mark and the first brace behind it make an opening tag. -/
theorem eq_opening_append {brace : Char} {after : Text}
    (hmark : dropPrefix? Tag.openingMark t = some behind)
    (hbrace : behind.dropWhile (· != '}') = brace :: after) :
    brace = '}' ∧ '}' ∉ behind.takeWhile (· != '}') ∧
      t = Tag.opening (behind.takeWhile (· != '}')) ++ after := by
  obtain ⟨rfl, hname, hbehind⟩ := eq_append_brace hbrace
  refine ⟨rfl, hname, ?_⟩
  rw [opening_append, ← hbehind]
  exact Text.dropPrefix?_eq_some_iff.mp hmark

theorem listed_eq_some_iff (hname : '\\' ∉ name) :
    (if names.contains name then body? name 1 [] t else none) = some s ↔
      name ∈ names ∧ Closes name 0 t s.text s.rest := by
  rw [Option.ite_none_right_eq_some, List.contains_iff_mem, body?_eq_some_iff hname rfl]
  simp

theorem foundAt_cons (h : ∀ use, ¬ Opens names (c :: t) use) (s : Text) (use : EnvironmentUse) :
    FoundAt names (c :: t) s use ↔ FoundAt names t s use := by
  refine and_congr_left fun hopens => ?_
  rw [List.suffix_cons_iff, or_iff_right]
  rintro rfl
  exact h use hopens

/-- Where no environment is found at an opening tag, those behind its name remain. -/
theorem foundAt_opening (hname : '\\' ∉ name)
    (h : ∀ use, ¬ Opens names (Tag.opening name ++ t) use) (s : Text) (use : EnvironmentUse) :
    FoundAt names (Tag.opening name ++ t) s use ↔ FoundAt names ('}' :: t) s use := by
  have htext : Tag.opening name ++ t =
      '\\' :: ((['b', 'e', 'g', 'i', 'n', '{'] ++ name) ++ '}' :: t) := by
    rw [opening_append, List.append_assoc]
    rfl
  rw [htext] at h ⊢
  rw [foundAt_cons h]
  refine and_congr_left fun hopens => ?_
  obtain ⟨r, rfl⟩ := hopens.backslash
  refine suffix_append_of_forall ?_
  rintro c hc rfl
  simp [hname] at hc

/-- **The search finds the environment of the leftmost opening tag that has a listed name and an
end.** -/
theorem find?_eq_some_iff (h : PlainNames t) :
    find? names t = some use ↔ Leftmost (FoundAt names t) use := by
  fun_induction find? names t with
  | case1 =>
    constructor
    · intro h
      cases h
    · rintro ⟨s, ⟨hsuffix, hopens⟩, -⟩
      cases hsuffix.subset hopens.brace
  | case2 c t hmark ih =>
    refine (ih (h.of_suffix (List.suffix_cons c t))).trans (leftmost_congr (foundAt_cons ?_)).symm
    intro use hopens
    obtain ⟨r, hr⟩ := hopens.mark
    rw [← hr, dropPrefix?_append] at hmark
    cases hmark
  | case3 c t behind hmark hbrace =>
    constructor
    · intro h
      cases h
    · rintro ⟨s, ⟨hsuffix, hopens⟩, -⟩
      have hmem := hsuffix.subset hopens.brace
      rw [Text.dropPrefix?_eq_some_iff.mp hmark] at hmem
      have hbehind : '}' ∈ behind := (List.mem_append.mp hmem).resolve_left (by decide)
      simpa using List.dropWhile_eq_nil_iff.mp hbrace _ hbehind
  | case4 c t behind hmark name brace after hbrace b hbody =>
    obtain ⟨rfl, hname, htext⟩ := eq_opening_append hmark hbrace
    rw [htext] at h ⊢
    have hplain := h name after hname List.suffix_rfl
    obtain ⟨hmem, hcloses⟩ := (listed_eq_some_iff hplain).mp hbody
    have hfront : FoundAt names (Tag.opening name ++ after) (Tag.opening name ++ after)
        (enclosing name after b.text b.rest) := ⟨List.suffix_rfl, .intro hmem hname hcloses⟩
    rw [leftmost_iff_of_front (fun _ _ h => h.1) hfront, FoundAt, and_iff_right List.suffix_rfl,
      opens_opening_iff hname]
    constructor
    · rintro ⟨⟩
      exact ⟨hmem, _, _, hcloses, rfl⟩
    · rintro ⟨-, b', rest', hcloses', rfl⟩
      have hbody' := (listed_eq_some_iff (s := ⟨b', rest'⟩) hplain).mpr ⟨hmem, hcloses'⟩
      rw [Option.some.inj (hbody.symm.trans hbody')]
      rfl
  | case5 c t behind hmark name brace after hbrace hbody ih =>
    obtain ⟨rfl, hname, htext⟩ := eq_opening_append hmark hbrace
    rw [htext] at h ⊢
    have hplain := h name after hname List.suffix_rfl
    have hsuffix : '}' :: after <:+ Tag.opening name ++ after := by
      rw [opening_append, ← List.append_assoc]
      exact List.suffix_append _ _
    refine (ih (h.of_suffix hsuffix)).trans (leftmost_congr (foundAt_opening hplain ?_)).symm
    intro use hopens
    obtain ⟨hmem, b, rest, hcloses, -⟩ := (opens_opening_iff hname).mp hopens
    have hsome := (listed_eq_some_iff (s := ⟨b, rest⟩) hplain).mpr ⟨hmem, hcloses⟩
    cases hbody.symm.trans hsome

/-! ## Where the parts of an environment stand -/

open Stretch

/-- The name stands behind the mark, and the body behind the opening tag. -/
theorem Closes.inOrder (h : Closes name ahead t b rest) :
    InOrder (Tag.opening name ++ t) rest [(enclosing name t b rest).name,
      (enclosing name t b rest).body] := by
  have hpos : ∀ tag : Text, 0 < Text.size ('\\' :: tag) := fun tag =>
    Nat.add_pos_left (Char.utf8Size_pos '\\') _
  have hclosing := hpos (closer name)
  have hbrace := Char.utf8Size_pos '}'
  rw [← closing_eq] at hclosing
  have hsize := congrArg Text.size h.split
  rw [Text.size_append, Text.size_append] at hsize
  exact {
    stand := by
      refine List.forall_mem_cons.mpr ⟨⟨Tag.openingMark, hpos _, opening_append name t⟩, ?_⟩
      exact List.forall_mem_singleton.mpr ⟨Tag.opening name, hpos _, congrArg _ h.split⟩
    behind := by
      refine List.forall_mem_cons.mpr ⟨?_, List.forall_mem_singleton.mpr ?_⟩
      all_goals
        simp only [enclosing, Text.size_cons, Text.size_append]
        omega
    apart := by
      refine List.pairwise_pair.mpr ?_
      simp only [enclosing, Text.size_cons, Text.size_append]
      omega }

theorem Opens.frames (h : Opens names t use) (before : Text) :
    use.whole.Frames (before ++ t) before.size [use.name, use.body] := by
  obtain @⟨name, t, b, rest, -, -, hcloses⟩ := h
  refine hcloses.inOrder.frames ?_ ?_ before
  · rw [hcloses.split]
    simp [enclosing]
  · exact Nat.add_pos_left (Char.utf8Size_pos '\\') _

/-- **The search finds the leftmost environment with a listed name and an end, with its name and
body in order, and nothing only where there is none.** -/
theorem find?_leftmost_terminated (h : PlainNames t) (names : List Text) (before : Text) :
    (∀ use, find? names t = some use ↔ Leftmost (FoundAt names t) use) ∧
      (find? names t = none ↔ ∀ s use, ¬ FoundAt names t s use) ∧
      ∀ use, find? names t = some use →
        use.whole.Frames (before ++ t) before.size [use.name, use.body] := by
  refine ⟨fun use => find?_eq_some_iff h, ?_, fun use huse => ?_⟩
  · exact eq_none_iff_of_leftmost (fun _ _ h => h.1) fun _ => find?_eq_some_iff h
  · obtain ⟨s, ⟨⟨front, rfl⟩, hopens⟩, -⟩ := (find?_eq_some_iff h).mp huse
    exact (hopens.frames (before ++ front)).of_append

/-- The first environment does not end, and another one that is not listed stands in it in front of
the one that is found. -/
def nestedEnvironments : Text :=
  Tag.opening ['a'] ++ (Tag.opening ['c'] ++ (Tag.closing ['c'] ++ (Tag.opening ['b'] ++
    (Tag.opening ['a'] ++ (Tag.opening ['b'] ++ (Tag.closing ['b'] ++ (Tag.closing ['a'] ++
      Tag.closing ['b'])))))))

def nestedEnvironment : EnvironmentUse :=
  enclosing ['b']
    (Tag.opening ['a'] ++ (Tag.opening ['b'] ++ (Tag.closing ['b'] ++ (Tag.closing ['a'] ++
      Tag.closing ['b']))))
    (Tag.opening ['a'] ++ (Tag.opening ['b'] ++ (Tag.closing ['b'] ++ Tag.closing ['a']))) []

theorem find?_leftmost_terminated_nestedEnvironment :
    PlainNames nestedEnvironments ∧
      find? [['a'], ['b']] nestedEnvironments = some nestedEnvironment ∧
      Leftmost (FoundAt [['a'], ['b']] nestedEnvironments) nestedEnvironment ∧
      nestedEnvironment.whole.Frames ("so ".toList ++ nestedEnvironments) 3
        [nestedEnvironment.name, nestedEnvironment.body] ∧
      ([nestedEnvironment.whole, nestedEnvironment.name, nestedEnvironment.body].map
        (·.span (Text.size ("so ".toList ++ nestedEnvironments))) =
          [(28, 76), (35, 36), (37, 69)]) := by
  have hplain : PlainNames nestedEnvironments := by decide +kernel
  have hfind : find? [['a'], ['b']] nestedEnvironments = some nestedEnvironment := by
    decide +kernel
  have hsize : Text.size "so ".toList = 3 := by decide
  obtain ⟨hleftmost, -, hframes⟩ :=
    find?_leftmost_terminated hplain [['a'], ['b']] "so ".toList
  rw [hsize] at hframes
  exact ⟨hplain, hfind, (hleftmost _).mp hfind, hframes _ hfind, by decide +kernel⟩

/-- The name of a tag ends at its first brace, so an environment with a brace in its name is not
found, though it stands there and ends. -/
theorem find?_bracedName :
    let name : Text := ['a', '}', 'b']
    let t := Tag.opening name ++ 'x' :: Tag.closing name
    PlainNames t ∧ Closes name 0 ('x' :: Tag.closing name) ['x'] [] ∧ find? [name] t = none := by
  have hbody : body? ['a', '}', 'b'] 1 [] ('x' :: Tag.closing ['a', '}', 'b']) =
      some ⟨['x'], []⟩ := by decide +kernel
  obtain ⟨b, hcloses, rfl⟩ := (body?_eq_some_iff (by decide) rfl).mp hbody
  exact ⟨by decide +kernel, hcloses, by decide +kernel⟩

end EnvironmentUse

end SpokenMath
