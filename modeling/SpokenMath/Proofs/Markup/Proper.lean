import SpokenMath.Proofs.Markup.Base
import SpokenMath.Proofs.Markup.Grammar

/-!
# The trees that are read

Not every tree comes from a text. In one that does, neighbouring leaves are one leaf, the base of a
script is a character, a number or a node, and commands have the arguments of their shapes. Such a
tree is **proper**.

**Theorem (`Reads.proper`).** What the grammar reads off tidy tokens is proper.

A leaf in front of a script does not end in a digit if the base is a number: the base takes all
digits that it can get (`Apart`).
-/

namespace SpokenMath

namespace Node

/-- The text that a node adds to the run in which it stands: a leaf, or the base of scripts. -/
def core : Node → Text
  | leaf t => t
  | script base _ _ => base.core
  | _ => []

/-- The characters of leaves. -/
def IsLiteral (c : Char) : Prop := Token.isPlain c = true ∨ c = '[' ∨ c = ']'

/-- Two nodes that stand next to each other. -/
def Apart (n m : Node) : Prop :=
  ∀ t, n = leaf t → (∀ u, m ≠ leaf u) ∧
    ((∃ c ∈ m.core, c.isDigit = true) → ∀ c ∈ t.getLast?, c.isDigit = false)

/-- No node closes the bracket that stands around them. -/
def Unbracketed (cs : List Node) : Prop := ∀ n ∈ cs, ']' ∉ n.core

/-- A name made of letters. -/
def IsWordName (name : String) : Prop :=
  name.toList ≠ [] ∧ ∀ c ∈ name.toList, c.isAlpha = true

/-- The name of a known command with arguments is a word. -/
theorem isWordName_of_shape {name : String} {shape : Shape}
    (hshape : Shape.ofCommand? name = some shape) (hsome : 1 ≤ shape.args) : IsWordName name := by
  have htable : ∀ names : List String,
      (∀ m ∈ names, m.toList ≠ [] ∧ m.toList.all Char.isAlpha = true) →
        names.contains name = true → IsWordName name := by
    intro names h hmem
    obtain ⟨hne, hletters⟩ := h name (List.contains_iff_mem.mp hmem)
    exact ⟨hne, List.all_eq_true.mp hletters⟩
  unfold Shape.ofCommand? at hshape
  split at hshape
  · next h => exact htable ["genfrac"] (by decide) (by simpa using h)
  · split at hshape
    · next h => exact htable Shape.twoArgs (by decide) h
    · split at hshape
      · next h => exact htable Shape.oneArgWithOption (by decide) h
      · split at hshape
        · next h => exact htable Shape.oneArg (by decide) h
        · split at hshape
          · obtain rfl := Option.some.inj hshape
            exact absurd hsome (by decide)
          · cases hshape

/-- A node that can be read off a legible text. -/
inductive Proper : Node → Prop
  | leaf {t} (hne : t ≠ []) (hliteral : ∀ c ∈ t, IsLiteral c) : Proper (.leaf t)
  | group {cs} (hcs : ∀ c ∈ cs, Proper c) (happart : cs.IsChain Apart) : Proper (.group cs)
  | sign {c} (halpha : c.isAlpha = false) (hne : c ≠ '\\') (hblank : isBlank c = false) :
      Proper (.bare (String.singleton c))
  | known {name shape args optional} (hname : Reading.IsOrdinary name) (hword : IsWordName name)
      (hshape : Shape.ofCommand? name = some shape) (hlength : args.length = shape.args)
      (hargs : ∀ a ∈ args, Proper a) (hproper : ∀ o ∈ optional, Proper o)
      (hoptional : ∀ o ∈ optional,
        shape.optional = true ∧ ∃ cs, o = .group cs ∧ Unbracketed cs) :
      Proper (.command name args optional)
  | unknownBare {name} (hname : Reading.IsOrdinary name) (hword : IsWordName name)
      (hshape : Shape.ofCommand? name = none) : Proper (.bare name)
  | unknownBraces {name cs} (hname : Reading.IsOrdinary name) (hword : IsWordName name)
      (hshape : Shape.ofCommand? name = none) (hcs : Proper (.group cs)) :
      Proper (.command name [.group cs] none)
  | script {base sub sup} (hbase : Proper base) (hleaf : ∀ t, base = .leaf t → IsBase t)
      (hsub : ∀ n ∈ sub, Proper n) (hsup : ∀ n ∈ sup, Proper n) (hsome : sub ≠ none ∨ sup ≠ none) :
      Proper (.script base sub sup)

theorem Proper.leaf_literal {t : Text} (h : (Node.leaf t).Proper) :
    t ≠ [] ∧ ∀ c ∈ t, IsLiteral c := by
  cases h with
  | leaf hne hliteral => exact ⟨hne, hliteral⟩

theorem Proper.group_children {cs : List Node} (h : (Node.group cs).Proper) :
    (∀ c ∈ cs, c.Proper) ∧ cs.IsChain Apart := by
  cases h with
  | group hcs hapart => exact ⟨hcs, hapart⟩

theorem apart_of_ne {n : Node} (h : ∀ t, n ≠ leaf t) (m : Node) : Apart n m :=
  fun t ht => absurd ht (h t)

theorem apart_of_core {m : Node} (h : m.core = []) (hleaf : ∀ t, m ≠ leaf t) (n : Node) :
    Apart n m :=
  fun _ _ => ⟨hleaf, fun ⟨_, hc, _⟩ => by rw [h] at hc; cases hc⟩

/-- Nothing but what is no leaf stands next to a leaf. -/
theorem ne_leaf_of_apart {n : Node} {t : Text} (h : Apart n (leaf t)) (u : Text) : n ≠ leaf u :=
  fun hn => (h u hn).1 t rfl

end Node

open Node

namespace Reading

/-- The nodes that were read before, the last one first. -/
structure Standing (stop : Stop) (acc : List Node) : Prop where
  proper : ∀ n ∈ acc, n.Proper
  apart : acc.IsChain fun m n => Apart n m
  unbracketed : stop = .atBracket → Unbracketed acc

variable {stop : Stop} {acc : List Node}

namespace Standing

theorem nil : Standing stop [] where
  proper := by simp
  apart := .nil
  unbracketed := by simp [Unbracketed]

theorem tail {n : Node} (h : Standing stop (n :: acc)) : Standing stop acc where
  proper m hm := h.proper m (List.mem_cons_of_mem n hm)
  apart := h.apart.tail
  unbracketed hstop m hm := h.unbracketed hstop m (List.mem_cons_of_mem n hm)

theorem cons {n : Node} (h : Standing stop acc) (hn : n.Proper)
    (hapart : ∀ m ∈ acc.head?, Apart m n) (hbracket : stop = .atBracket → ']' ∉ n.core) :
    Standing stop (n :: acc) where
  proper := List.forall_mem_cons.mpr ⟨hn, h.proper⟩
  apart := h.apart.cons hapart
  unbracketed hstop := List.forall_mem_cons.mpr ⟨hbracket hstop, h.unbracketed hstop⟩

/-- A node that adds nothing to a run may come next. -/
theorem cons_of_core {n : Node} (h : Standing stop acc) (hn : n.Proper) (hcore : n.core = [])
    (hleaf : ∀ t, n ≠ leaf t) : Standing stop (n :: acc) :=
  h.cons hn (fun m _ => apart_of_core hcore hleaf m) fun _ => by simp [hcore]

theorem head_apart {n : Node} (h : Standing stop (n :: acc)) : ∀ m ∈ acc.head?, Apart m n :=
  (List.isChain_cons.mp h.apart).1

/-- A leaf has no leaf in front of it. -/
theorem ne_leaf {t : Text} (h : Standing stop (leaf t :: acc)) :
    ∀ m ∈ acc.head?, ∀ u, m ≠ leaf u :=
  fun m hm => ne_leaf_of_apart (h.head_apart m hm)

theorem pushText {run : Text} (h : Standing stop acc) (hne : run ≠ [])
    (hliteral : ∀ c ∈ run, IsLiteral c) (hbracket : stop = .atBracket → ']' ∉ run) :
    Standing stop (pushText run acc) := by
  unfold Reading.pushText
  split
  · next before nodes =>
    have hbefore := (h.proper (leaf before) List.mem_cons_self).leaf_literal.2
    refine h.tail.cons (.leaf (by simp [hne]) ?_) (fun m hm => apart_of_ne (h.ne_leaf m hm) _) ?_
    · intro c hc
      exact (List.mem_append.mp hc).elim (hbefore c) (hliteral c)
    · intro hstop hmem
      exact (List.mem_append.mp hmem).elim
        (h.unbracketed hstop (leaf before) List.mem_cons_self) (hbracket hstop)
  · next hhead =>
    refine h.cons (.leaf hne hliteral) (fun m hm => apart_of_ne (fun u hu => ?_) _) hbracket
    obtain ⟨r, hr⟩ := List.head?_eq_some_iff.mp hm
    exact hhead u r (by rw [hr, hu])

end Standing

/-- What is taken as the base of a script, and what is left. -/
structure Popped (stop : Stop) (base : Node) (acc : List Node) : Prop where
  proper : base.Proper
  isBase : ∀ t, base = leaf t → IsBase t
  rest : Standing stop acc
  apart : ∀ m ∈ acc.head?, ∀ t, m = leaf t →
    (∃ c ∈ base.core, c.isDigit = true) → ∀ c ∈ t.getLast?, c.isDigit = false
  unbracketed : stop = .atBracket → ']' ∉ base.core

theorem Takes.popped {base : Node} {rest : List Node} (h : Takes acc base rest)
    (hacc : Standing stop acc) : Popped stop base rest := by
  induction h with
  | nothing => exact {
      proper := .group (by simp) .nil
      isBase := nofun
      rest := .nil
      apart := by simp
      unbracketed := by simp [core] }
  | blank _ _ ih => exact ih hacc.tail
  | @text front t gap nodes hbase _ hdigits =>
    have hliteral := (hacc.proper (leaf (front ++ (t ++ gap))) List.mem_cons_self).leaf_literal.2
    have hbracket := fun hstop =>
      hacc.unbracketed hstop (leaf (front ++ (t ++ gap))) List.mem_cons_self
    have hfront : front ⊆ front ++ (t ++ gap) := List.subset_append_left _ _
    have ht : t ⊆ front ++ (t ++ gap) := fun d hd =>
      List.mem_append_right _ (List.mem_append_left _ hd)
    refine ⟨.leaf hbase.ne_nil fun d hd => hliteral d (ht hd), fun u hu => Node.leaf.inj hu ▸ hbase,
      ?_, ?_, fun hstop hd => hbracket hstop (ht hd)⟩
    · split
      · exact hacc.tail
      · next hne =>
        exact hacc.tail.cons (.leaf (by simpa using hne) fun d hd => hliteral d (hfront hd))
          (fun m hm => apart_of_ne (hacc.ne_leaf m hm) _) fun hstop hd => hbracket hstop (hfront hd)
    · intro m hm u hu
      split at hm
      · exact absurd hu (hacc.ne_leaf m hm u)
      · obtain rfl := Option.some.inj hm
        obtain rfl := Node.leaf.inj hu
        exact hdigits
  | @node n nodes hleaf => exact {
      proper := hacc.proper n List.mem_cons_self
      isBase := fun t ht => absurd ht (hleaf t)
      rest := hacc.tail
      apart := fun m hm t ht => (hacc.head_apart m hm t ht).2
      unbracketed := fun hstop => hacc.unbracketed hstop n List.mem_cons_self }

/-- What a part yields from tidy tokens. -/
def Part.Yields : Part → List Token → List Node → Prop
  | nodes stop acc, _, ns => Standing stop acc → Standing stop ns.reverse
  | group, _, ns => ∃ cs, ns = [.group cs] ∧ (Node.group cs).Proper
  | argument, _, ns => ∃ n, ns = [n] ∧ n.Proper
  | optional allowed, _, ns =>
    ∀ o ∈ ns, o.Proper ∧ allowed = true ∧ ∃ cs, o = .group cs ∧ Unbracketed cs
  | command name, _, ns => IsWordName name → ∀ n ∈ ns, n.Proper ∧ n.core = [] ∧ ∀ t, n ≠ .leaf t
  | arguments k, _, ns => ns.length = k ∧ ∀ n ∈ ns, n.Proper
  | scripts base sub sup, ts, ns =>
    (base.Proper ∧ (∀ t, base = .leaf t → IsBase t) ∧ (∀ n ∈ sub, n.Proper) ∧ ∀ n ∈ sup, n.Proper) →
      sub ≠ none ∨ sup ≠ none ∨ startsScript ts sub sup →
        ∃ sub' sup', ns = [.script base sub' sup'] ∧ (Node.script base sub' sup').Proper

theorem Standing.append {ns : List Node} (h : Standing stop acc)
    (hns : ∀ n ∈ ns, n.Proper ∧ n.core = [] ∧ ∀ t, n ≠ .leaf t) : Standing stop (ns ++ acc) := by
  induction ns with
  | nil => exact h
  | cons n ns ih =>
    obtain ⟨⟨hn, hcore, hleaf⟩, hns⟩ := List.forall_mem_cons.mp hns
    exact (ih hns).cons_of_core hn hcore hleaf

/-- The nodes between delimiters are a group. -/
theorem Standing.group {ns : List Node} (h : Standing stop ns.reverse) :
    (Node.group ns).Proper := by
  refine .group (fun n hn => h.proper n (List.mem_reverse.mpr hn)) ?_
  rw [← List.reverse_reverse ns, List.isChain_reverse]
  exact h.apart

/-- The text that a token adds to nodes is literal. -/
theorem literal_of_cut {tok : Token} {run : Text} (h : literal? stop tok = some run)
    (htok : tok.Cut) :
    run ≠ [] ∧ (∀ c ∈ run, IsLiteral c) ∧ (stop = .atBracket → ']' ∉ run) := by
  rcases literal_cases h with rfl | ⟨-, rfl⟩ | ⟨⟨-, hstop⟩, rfl⟩ | ⟨-, rfl⟩
  · refine ⟨htok.1, fun c hc => .inl (htok.2 c hc), fun _ hc => ?_⟩
    exact absurd (htok.2 ']' hc) (by decide)
  · exact ⟨by simp, by simp [IsLiteral], by simp⟩
  · exact ⟨by simp, by simp [IsLiteral], fun hbracket => absurd hbracket hstop⟩
  · exact ⟨by simp, by simp [IsLiteral, Token.isPlain, Token.isSpecial], by simp⟩

theorem Reads.yields {part : Part} {ts rest : List Token} {ns : List Node}
    (h : Reads part ts ns rest) (hts : ∀ tok ∈ ts, tok.Tidy) : part.Yields ts ns := by
  induction h with
  | atEnd | closeBrace | closeBracket =>
    intro hacc
    rwa [List.reverse_reverse]
  | strayBrace _ _ _ ih => exact ih (List.forall_mem_cons.mp hts).2
  | literal hrun _ ih =>
    obtain ⟨htok, hts⟩ := List.forall_mem_cons.mp hts
    obtain ⟨hne, hliteral, hbracket⟩ := literal_of_cut hrun htok.cut
    exact fun hacc => ih hts (hacc.pushText hne hliteral hbracket)
  | braces hgroup _ ih ih' =>
    have hts := (List.forall_mem_cons.mp hts).2
    obtain ⟨cs, hn, hcs⟩ := ih hts
    obtain rfl := List.singleton_inj.mp hn
    exact fun hacc => ih' (hgroup.tidy hts) (hacc.cons_of_core hcs rfl nofun)
  | sign _ ih =>
    obtain ⟨⟨halpha, hne, hblank⟩, hts⟩ := List.forall_mem_cons.mp hts
    exact fun hacc => ih hts (hacc.cons_of_core (.sign halpha hne hblank) rfl nofun)
  | word hword _ ih ih' =>
    obtain ⟨hname, hts⟩ := List.forall_mem_cons.mp hts
    exact fun hacc => ih' (hword.tidy hts) (hacc.append (ih hts hname.1))
  | @marks stop acc tok ts n ts' out rest hmark hscripts _ ih ih' =>
    intro hacc
    have hpop := (takes_popBase acc).popped hacc
    have hstarts : startsScript (tok :: ts) none none :=
      hmark.imp (fun h => ⟨congrArg some h, rfl⟩) fun h => ⟨congrArg some h, rfl⟩
    obtain ⟨sub, sup, hn, hproper⟩ := ih hts
      ⟨hpop.proper, hpop.isBase, nofun, nofun⟩ (.inr (.inr hstarts))
    obtain rfl := List.singleton_inj.mp hn
    refine ih' (hscripts.tidy hts) (hpop.rest.cons hproper (fun m hm t ht => ⟨nofun, ?_⟩) ?_)
    · exact hpop.apart m hm t ht
    · exact hpop.unbracketed
  | group _ ih => exact ⟨_, rfl, (ih hts .nil).group⟩
  | argBlank _ _ ih => exact ih (List.forall_mem_cons.mp hts).2
  | @argChar run c run' ts hrun =>
    have hc : c ∈ run.trimStart := hrun ▸ List.mem_cons_self
    have hplain := (List.forall_mem_cons.mp hts).1.2 c (List.dropWhile_subset isBlank hc)
    exact ⟨_, rfl, .leaf (by simp) (by simp [IsLiteral, hplain])⟩
  | argGroup _ ih =>
    obtain ⟨cs, hn, hcs⟩ := ih (List.forall_mem_cons.mp hts).2
    exact ⟨_, hn, hcs⟩
  | @argWord name ts ns rest _ ih =>
    obtain ⟨hname, hts⟩ := List.forall_mem_cons.mp hts
    refine ⟨_, rfl, ?_⟩
    cases ns with
    | nil => exact .group (by simp) .nil
    | cons n ns => exact (ih hts hname.1 n List.mem_cons_self).1
  | argSign =>
    obtain ⟨halpha, hne, hblank⟩ := (List.forall_mem_cons.mp hts).1
    exact ⟨_, rfl, .sign halpha hne hblank⟩
  | argMissing => exact ⟨_, rfl, .group (by simp) .nil⟩
  | @brackets ts ts' out rest hopen _ ih =>
    have hts' : ∀ tok ∈ ts', tok.Tidy := fun tok htok => hts tok
      ((skipBlank_suffix ts).subset (hopen ▸ List.mem_cons_of_mem _ htok))
    have hout := ih hts' .nil
    intro o ho
    obtain rfl := List.mem_singleton.mp ho
    exact ⟨hout.group, rfl, out, rfl,
      fun n hn => hout.unbracketed rfl n (List.mem_reverse.mpr hn)⟩
  | noBrackets => exact nofun
  | sizer => exact fun _ => nofun
  | @known name shape ts os ts' args rest hname hshape hoptional _ ih ih' =>
    intro hword n hn
    obtain rfl := List.mem_singleton.mp hn
    obtain ⟨hlength, hargs⟩ := ih' (hoptional.tidy hts)
    have hos := fun o (ho : o ∈ os.head?) => ih hts o (List.mem_of_mem_head? ho)
    exact ⟨.known hname hword hshape hlength hargs (fun o ho => (hos o ho).1)
      fun o ho => (hos o ho).2, rfl, nofun⟩
  | unknownBraces hname hshape _ ih =>
    intro hword n hn
    obtain rfl := List.mem_singleton.mp hn
    obtain ⟨cs, hn, hcs⟩ := ih (List.forall_mem_cons.mp hts).2
    obtain rfl := List.singleton_inj.mp hn
    exact ⟨.unknownBraces hname hword hshape hcs, rfl, nofun⟩
  | unknownBare hname hshape _ =>
    intro hword n hn
    obtain rfl := List.mem_singleton.mp hn
    exact ⟨.unknownBare hname hword hshape, rfl, nofun⟩
  | noArguments => exact ⟨rfl, nofun⟩
  | moreArguments harg _ ih ih' =>
    obtain ⟨n, hn, hproper⟩ := ih hts
    obtain rfl := List.singleton_inj.mp hn
    obtain ⟨hlength, hns⟩ := ih' (harg.tidy hts)
    exact ⟨congrArg (· + 1) hlength, List.forall_mem_cons.mpr ⟨hproper, hns⟩⟩
  | subscript harg _ ih ih' =>
    rintro ⟨hbase, hleaf, -, hsup⟩ -
    have hts := (List.forall_mem_cons.mp hts).2
    obtain ⟨n, hn, hproper⟩ := ih hts
    obtain rfl := List.singleton_inj.mp hn
    exact ih' (harg.tidy hts) ⟨hbase, hleaf, by simpa using hproper, hsup⟩ (.inl nofun)
  | superscript harg _ ih ih' =>
    rintro ⟨hbase, hleaf, hsub, -⟩ -
    have hts := (List.forall_mem_cons.mp hts).2
    obtain ⟨n, hn, hproper⟩ := ih hts
    obtain rfl := List.singleton_inj.mp hn
    exact ih' (harg.tidy hts) ⟨hbase, hleaf, hsub, by simpa using hproper⟩ (.inr (.inl nofun))
  | scripted hmark =>
    rintro ⟨hbase, hleaf, hsub, hsup⟩ hsome
    refine ⟨_, _, rfl, .script hbase hleaf hsub hsup ?_⟩
    exact hsome.imp_right fun h => h.resolve_right hmark

/-- **What is read off tidy tokens is proper.** -/
theorem Reads.proper {ts rest : List Token} {ns : List Node}
    (h : Reads (.nodes .atEnd []) ts ns rest) (hts : ∀ tok ∈ ts, tok.Tidy) :
    (Node.group ns).Proper :=
  Standing.group (h.yields hts .nil)

end Reading

end SpokenMath
