import SpokenMath.Proofs.Markup.Rereading.Command

/-!
# Reading canonical scripts

In canonical text the scripts of a base follow one another without a blank, and so the reader joins
a subscript to a superscript, or a superscript to a subscript, wherever one is alone. Where scripts
hang on scripts, it may hang them differently than they were before: `Hangs` describes the base and
the open scripts at which the reader has arrived behind a part of the text.

**Theorem (`Hangs.subscript`, `Hangs.superscript`).** One more script is joined to those that are
open, or hung on a new base. Only the subscript that is joined to a superscript comes to stand in
front of what was read before it.
-/

namespace SpokenMath

open Node Text

namespace Reading

/-! ## Marks -/

/-- A text begins with a mark. -/
def Marked (t : Text) : Prop := ∃ c ∈ t.head?, c = '_' ∨ c = '^'

theorem tokenize_of_marked {t : Text} (h : Marked t) :
    ∃ tok ts, tokenize t = tok :: ts ∧ (tok = .sub ∨ tok = .sup) := by
  obtain ⟨c, hc, hmark⟩ := h
  obtain ⟨r, rfl⟩ := List.head?_eq_some_iff.mp hc
  rcases hmark with rfl | rfl
  · exact ⟨_, _, tokenize_sub r, .inl rfl⟩
  · exact ⟨_, _, tokenize_sup r, .inr rfl⟩

theorem not_startsScript {t : Text} (h : ¬Marked t) (sub sup : Option Node) :
    ¬startsScript (tokenize t) sub sup := by
  rintro (⟨htok, -⟩ | ⟨htok, -⟩)
  · exact h ⟨'_', head?_of_tokenize_sub htok, .inl rfl⟩
  · exact h ⟨'^', (head?_tokenize_eq_sup_iff t).mp htok, .inr rfl⟩

theorem lineMark_some (mark : Char) (n : Node) : lineMark mark (some n) = mark :: n.lineBraces :=
  rfl

variable {stop : Stop} {acc ns : List Node} {rest ts : List Token} {t : Text}
variable {b x x' m : Node} {sub sup : Option Node}

/-- Marks are read as the scripts of what stands in front of them. -/
theorem reads_marks (ht : Marked t) (hscripts : Reads (.scripts b none none) (tokenize t) [m] ts)
    {acc' : List Node} (hpop : popBase acc' = (b, acc))
    (hrest : Reads (.nodes stop (m :: acc)) ts ns rest) :
    Reads (.nodes stop acc') (tokenize t) ns rest := by
  obtain ⟨tok, ts', htoken, hmark⟩ := tokenize_of_marked ht
  rw [htoken] at hscripts ⊢
  have hbase : (popBase acc').1 = b := congrArg Prod.fst hpop
  have hbefore : (popBase acc').2 = acc := congrArg Prod.snd hpop
  subst hbase hbefore
  exact .marks hmark hscripts hrest

theorem reads_subscript (hx : RereadsWithin x x')
    (h : Reads (.scripts b (some x') sup) (tokenize t) [m] ts) :
    Reads (.scripts b none sup) (tokenize (lineMark '_' (some x) ++ t)) [m] ts := by
  rw [lineMark_some, List.cons_append, tokenize_sub]
  exact .subscript (hx.reads_argument t) h

theorem reads_superscript (hx : RereadsWithin x x')
    (h : Reads (.scripts b sub (some x')) (tokenize t) [m] ts) :
    Reads (.scripts b sub none) (tokenize (lineMark '^' (some x) ++ t)) [m] ts := by
  rw [lineMark_some, List.cons_append, tokenize_sup]
  exact .superscript (hx.reads_argument t) h

/-! ## The two parts of a text -/

/-- The text of scripts. -/
def lineMarks (sub sup : Option Node) : Text := lineMark '_' sub ++ lineMark '^' sup

/-- A text is that of a base first, and that of its scripts then, so far as something holds. -/
inductive Halves (p : Prop) (text : Text) (b : Node) (sub sup : Option Node) : Prop
  | intro {q r : Prop} {front back : Text} (htext : text = front ++ back) (hiff : p ↔ q ∧ r)
      (hbase : SameIf q front b.line) (hmarks : SameIf r back (lineMarks sub sup))
      (hfirst : sub = none → sup ≠ none → ∃ u, back = '^' :: u)

variable {p q : Prop} {text s s' : Text} {sub' sup' : Option Node}

namespace Halves

theorem start (h : SameIf p text b.line) : Halves p text b none none :=
  .intro (List.append_nil text).symm (and_iff_left trivial).symm h (.refl trivial [])
    fun _ hne => absurd rfl hne

theorem congr (h : Halves p text b sub sup) (hpq : p ↔ q) : Halves q text b sub sup := by
  obtain ⟨htext, hiff, hbase, hmarks, hfirst⟩ := h
  exact .intro htext (hpq.symm.trans hiff) hbase hmarks hfirst

/-- Both parts together are the text of the base with its scripts. -/
theorem whole (h : Halves p text b sub sup) : SameIf p text (b.line ++ lineMarks sub sup) := by
  obtain ⟨rfl, hiff, hbase, hmarks, -⟩ := h
  exact (hbase.append hmarks).congr hiff.symm

/-- Behind full scripts, the scripts of a new base begin. -/
theorem again (h : Halves p text b sub sup) (hsolid : (spell false b).Solid)
    (hs : SameIf q s (lineMarks sub' sup'))
    (hfirst : sub' = none → sup' ≠ none → ∃ u, s = '^' :: u) :
    Halves (p ∧ q) (text ++ s) (script b sub sup) sub' sup' := by
  refine .intro rfl Iff.rfl ?_ hs hfirst
  rw [line_script hsolid]
  exact h.whole

/-- The text of the scripts goes on. -/
theorem more (h : Halves p text b sub sup) (hs : SameIf q s s')
    (hmarks : lineMarks sub' sup' = lineMarks sub sup ++ s')
    (hfirst : sub' = none → sup' ≠ none → lineMarks sub sup = [] ∧ ∃ u, s = '^' :: u) :
    Halves (p ∧ q) (text ++ s) b sub' sup' := by
  obtain ⟨rfl, hiff, hbase, hback, -⟩ := h
  refine .intro (List.append_assoc _ _ _) ((and_congr_left' hiff).trans and_assoc) hbase ?_ ?_
  · rw [hmarks]
    exact hback.append hs
  · intro hsub hsup
    obtain ⟨hnil, u, hu⟩ := hfirst hsub hsup
    rw [hnil] at hback
    rw [hback.eq_nil, List.nil_append]
    exact ⟨u, hu⟩

/-- A subscript comes to stand in front of the superscript to which it is joined. -/
theorem swapped {y : Node} (h : Halves p text b none (some y)) :
    Halves False (text ++ lineMark '_' (some x)) b (some x') (some y) := by
  obtain ⟨rfl, -, hbase, -, hfirst⟩ := h
  obtain ⟨u, rfl⟩ := hfirst rfl nofun
  refine .intro (List.append_assoc _ _ _) (and_false _).symm.to_iff hbase ⟨False.elim, ?_⟩ nofun
  exact fun _ => ⟨[], _, _, rfl, rfl⟩

end Halves

/-! ## Open scripts -/

/-- Behind a text, the base `b` and its scripts `sub` and `sup` have been read, and more scripts
may come. -/
structure Hangs (core : Text) (p : Prop) (text : Text) (b : Node) (sub sup : Option Node) :
    Prop where
  solid : (spell false b).Solid
  spelled : b.Spelled
  spelled_sub : ∀ n ∈ sub, n.Spelled
  spelled_sup : ∀ n ∈ sup, n.Spelled
  halves : Halves p text b sub sup
  reads : ∀ {stop acc t ns rest m ts}, (stop = .atBracket → ']' ∉ core) →
    (core ≠ [] → Ready acc core) → (sub = none → sup = none → Marked t) →
    Reads (.scripts b sub sup) (tokenize t) [m] ts → Reads (.nodes stop (m :: acc)) ts ns rest →
    Reads (.nodes stop acc) (tokenize (text ++ t)) ns rest

variable {core : Text}

/-- A base in front of which nothing else belongs to it. -/
theorem hangs_leaf {u : Text} (hbase : IsBase u) (hliteral : ∀ c ∈ u, IsLiteral c) :
    Hangs u (leaf u).Orderly (leaf u).line (leaf u) none none where
  solid := solid_of_isBase hbase
  spelled := spelled_leaf u
  spelled_sub := nofun
  spelled_sup := nofun
  halves := .start (.refl (orderly_leaf u) _)
  reads := by
    intro stop acc t ns rest m ts hbracket hready hmarked hscripts hrest
    rw [line_leaf hbase.not_blank]
    refine reads_run hliteral hbracket ?_
    rw [write, if_neg (by simpa using hbase.ne_nil)]
    exact reads_marks (hmarked rfl rfl) hscripts ((hready hbase.ne_nil).popBase hbase) hrest

theorem popBase_of_ne_leaf {n : Node} (h : ∀ t, n ≠ leaf t) (acc : List Node) :
    popBase (n :: acc) = (n, acc) := by
  cases n with
  | leaf t => exact absurd rfl (h t)
  | _ => rfl

/-- A node that is read back becomes the base. -/
theorem Rereads.hangs {n n' : Node} (h : Rereads n n')
    (hscript : ∀ base sub sup, n ≠ script base sub sup) :
    Hangs n.core n.Orderly n.line n' none none where
  solid := h.solid
  spelled := h.spelled
  spelled_sub := nofun
  spelled_sup := nofun
  halves := .start h.same
  reads := by
    intro stop acc t ns rest m ts hbracket hready hmarked hscripts hrest
    obtain ⟨c, hc, hmark⟩ := hmarked rfl rfl
    refine h.reads hbracket hready ⟨?_, ?_⟩ ?_
    · intro _ d hd
      obtain rfl := Option.mem_unique hc hd
      exact .inr hmark
    · exact fun base sub sup heq => absurd heq (hscript base sub sup)
    · exact reads_marks ⟨c, hc, hmark⟩ hscripts (popBase_of_ne_leaf h.ne_leaf acc) hrest

namespace Hangs

theorem congr (h : Hangs core p text b sub sup) (hpq : p ↔ q) : Hangs core q text b sub sup where
  solid := h.solid
  spelled := h.spelled
  spelled_sub := h.spelled_sub
  spelled_sup := h.spelled_sup
  halves := h.halves.congr hpq
  reads := h.reads

/-- Where a mark has no room left, what was read so far becomes the base. -/
theorem reads_again (h : Hangs core p text b sub sup) (hbracket : stop = .atBracket → ']' ∉ core)
    (hready : core ≠ [] → Ready acc core) (hfull : ¬startsScript (tokenize t) sub sup)
    (hsome : sub = none → sup ≠ none) (ht : Marked t)
    (hscripts : Reads (.scripts (script b sub sup) none none) (tokenize t) [m] ts)
    (hrest : Reads (.nodes stop (m :: acc)) ts ns rest) :
    Reads (.nodes stop acc) (tokenize (text ++ t)) ns rest :=
  h.reads hbracket hready (fun hsub hsup => absurd hsup (hsome hsub)) (.scripted hfull)
    (reads_marks ht hscripts rfl hrest)

/-- **One more subscript.** -/
theorem subscript (h : Hangs core p text b sub sup) (hx : RereadsWithin x x') :
    ∃ b' sup', Hangs core (p ∧ (sub.isNone && sup.isSome) = false ∧ x.Orderly)
        (text ++ lineMark '_' (some x)) b' (some x') sup' ∧
      ((sub.isNone && sup.isSome) = false → sup' = none) := by
  have hmark : ∀ t, Marked (lineMark '_' (some x) ++ t) := fun t => ⟨'_', rfl, .inl rfl⟩
  have hsame : SameIf x.Orderly (lineMark '_' (some x)) (lineMark '_' (some x')) :=
    hx.same_braces.append_left ['_']
  have hspelled : ∀ n ∈ some x', n.Spelled := by simpa using hx.spelled
  cases sub with
  | none =>
    -- It is joined to what is open, and comes before a superscript that stands there.
    refine ⟨b, sup, ⟨h.solid, h.spelled, hspelled, h.spelled_sup, ?_, ?_⟩, ?_⟩
    · cases sup with
      | none =>
        have hmore : Halves (p ∧ x.Orderly) (text ++ lineMark '_' (some x)) b (some x') none :=
          h.halves.more hsame (by simp [lineMarks, lineMark]) nofun
        exact hmore.congr (by simp)
      | some y => exact h.halves.swapped.congr (by simp)
    · intro stop acc t ns rest m ts hbracket hready _ hscripts hrest
      rw [List.append_assoc]
      exact h.reads hbracket hready (fun _ _ => hmark t) (reads_subscript hx hscripts) hrest
    · cases sup <;> simp
  | some z =>
    -- There is a subscript already, so all that was read becomes the base.
    refine ⟨script b (some z) sup, none, ⟨solid_script h.solid _ _, ?_, hspelled, nofun, ?_, ?_⟩,
      fun _ => rfl⟩
    · exact spelled_script h.spelled h.solid h.spelled_sub h.spelled_sup
    · have hagain : Halves (p ∧ x.Orderly) (text ++ lineMark '_' (some x)) (script b (some z) sup)
          (some x') none := h.halves.again h.solid (by simpa [lineMarks, lineMark] using hsame) nofun
      exact hagain.congr (by simp)
    · intro stop acc t ns rest m ts hbracket hready _ hscripts hrest
      rw [List.append_assoc]
      refine h.reads_again hbracket hready ?_ nofun (hmark t) (reads_subscript hx hscripts) hrest
      rw [lineMark_some, List.cons_append, tokenize_sub]
      simp [startsScript]

/-- **One more superscript.** -/
theorem superscript (h : Hangs core p text b sub sup) (hx : RereadsWithin x x') :
    ∃ b' sub', Hangs core (p ∧ x.Orderly) (text ++ lineMark '^' (some x)) b' sub' (some x') ∧
      sub'.isSome = (sub.isSome && sup.isNone) := by
  have hmark : ∀ t, Marked (lineMark '^' (some x) ++ t) := fun t => ⟨'^', rfl, .inr rfl⟩
  have hsame : SameIf x.Orderly (lineMark '^' (some x)) (lineMark '^' (some x')) :=
    hx.same_braces.append_left ['^']
  have hspelled : ∀ n ∈ some x', n.Spelled := by simpa using hx.spelled
  cases sup with
  | none =>
    refine ⟨b, sub, ⟨h.solid, h.spelled, h.spelled_sub, hspelled, ?_, ?_⟩, by simp⟩
    · refine h.halves.more hsame (by simp [lineMarks, lineMark]) fun hsub _ => ?_
      rw [hsub]
      exact ⟨rfl, _, rfl⟩
    · intro stop acc t ns rest m ts hbracket hready _ hscripts hrest
      rw [List.append_assoc]
      exact h.reads hbracket hready (fun _ _ => hmark t) (reads_superscript hx hscripts) hrest
  | some z =>
    refine ⟨script b sub (some z), none, ⟨solid_script h.solid _ _, ?_, nofun, hspelled, ?_, ?_⟩,
      by simp⟩
    · exact spelled_script h.spelled h.solid h.spelled_sub h.spelled_sup
    · exact h.halves.again h.solid (by simpa [lineMarks, lineMark] using hsame) fun _ _ => ⟨_, rfl⟩
    · intro stop acc t ns rest m ts hbracket hready _ hscripts hrest
      rw [List.append_assoc]
      refine h.reads_again hbracket hready ?_ (fun _ => nofun) (hmark t)
        (reads_superscript hx hscripts) hrest
      rw [lineMark_some, List.cons_append, tokenize_sup]
      simp [startsScript]

/-- Where no mark follows, the scripts that are open belong to a script that is read back. -/
theorem rereads {base : Node} {sub₀ sup₀ : Option Node}
    (h : Hangs base.core (script base sub₀ sup₀).Orderly (script base sub₀ sup₀).line b sub sup)
    (hsome : sub = none → sup ≠ none) : Rereads (script base sub₀ sup₀) (script b sub sup) where
  spelled := spelled_script h.spelled h.solid h.spelled_sub h.spelled_sup
  solid := solid_script h.solid sub sup
  ne_leaf := nofun
  isAlone_eq := rfl
  same := by
    rw [line_script h.solid]
    exact h.halves.whole
  reads := by
    intro stop acc t ns rest hbracket hready hfollows hrest
    refine h.reads hbracket hready (fun hsub hsup => absurd hsup (hsome hsub)) (.scripted ?_) hrest
    refine not_startsScript (fun ⟨c, hc, hmark⟩ => ?_) sub sup
    obtain ⟨hsub, hsup⟩ := hfollows.mark base sub₀ sup₀ rfl c hc
    exact hmark.elim hsub hsup

end Hangs

end Reading

end SpokenMath
