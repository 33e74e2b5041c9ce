import SpokenMath.Proofs.Lists
import SpokenMath.Proofs.Markup.Base
import SpokenMath.Proofs.Markup.Course
import SpokenMath.Proofs.Markup.DepthLimit
import SpokenMath.Proofs.Markup.Order

/-!
# Nothing is lost and nothing is added

Runs of text are cut in many places, for arguments of one character and for the bases of scripts,
and blanks and brackets come and go on the way. All else is kept. At every moment the commands and
characters in the nodes, those that a task carries along, and those in the tokens ahead are together
the same as before (`Course.keeps`).

**Theorem (`conservation_of_parse`).** Where no environment and no sized delimiter stands in a text,
its tree has the commands and the characters of its tokens, and the unknown commands are those of
the tokens, each once and in order.
-/

namespace SpokenMath

/-! ## What is kept -/

/-- A character that reaches a leaf, wherever it stands. -/
def isKept (c : Char) : Bool := !isBlank c && c != '[' && c != ']'

/-- The name of a command, or a character that is kept. -/
inductive Content
  | name (s : String)
  | char (c : Char)
  deriving DecidableEq

namespace Content

def ofText (t : Text) : List Content := (t.filter isKept).map char

def name? : Content → Option String
  | name s => some s
  | char _ => none

def char? : Content → Option Char
  | name _ => none
  | char c => some c

@[simp] theorem ofText_nil : ofText [] = [] := rfl

theorem ofText_append (s t : Text) : ofText (s ++ t) = ofText s ++ ofText t := by
  rw [ofText, List.filter_append, List.map_append]
  rfl

theorem ofText_blank {t : Text} (h : ∀ c ∈ t, isBlank c = true) : ofText t = [] := by
  rw [ofText, List.filter_eq_nil_iff.mpr fun c hc => by simp [isKept, h c hc]]
  rfl

theorem filterMap_name?_ofText (t : Text) : (ofText t).filterMap name? = [] :=
  List.filterMap_eq_nil_iff.mpr (List.forall_mem_map.mpr fun _ _ => rfl)

theorem filterMap_char?_ofText (t : Text) : (ofText t).filterMap char? = t.filter isKept := by
  rw [ofText, List.filterMap_map]
  exact List.filterMap_some

end Content

namespace Node

/-- The text of a leaf. -/
def leafText : Node → Text
  | leaf t => t
  | _ => []

/-- What a node adds to what its children have. -/
def own : Node → List Content
  | leaf t => Content.ofText t
  | command name _ _ => [.name name]
  | _ => []

/-- The commands and characters of a tree. -/
def kept (n : Node) : List Content := n.nodes.flatMap own

theorem kept_eq (n : Node) : n.kept = n.own ++ n.children.flatMap kept := by
  have hnodes : n.nodes = n :: n.children.flatMap nodes := preorder_eq _ n
  rw [kept, hnodes, List.flatMap_cons, List.flatMap_assoc]
  rfl

theorem filterMap_name?_kept (n : Node) :
    n.kept.filterMap Content.name? = n.commandNames := by
  unfold kept commandNames
  induction n.nodes with
  | nil => rfl
  | cons m ms ih =>
    rw [List.flatMap_cons, List.filterMap_append, ih]
    cases m with
    | leaf t => rw [own, Content.filterMap_name?_ofText]; rfl
    | _ => rfl

theorem filterMap_char?_kept (n : Node) :
    n.kept.filterMap Content.char? = (n.nodes.flatMap leafText).filter isKept := by
  unfold kept
  induction n.nodes with
  | nil => rfl
  | cons m ms ih =>
    rw [List.flatMap_cons, List.flatMap_cons, List.filterMap_append, List.filter_append, ih]
    cases m with
    | leaf t => rw [own, Content.filterMap_char?_ofText]; rfl
    | _ => rfl

end Node

namespace Token

/-- The name of the command that a token stands for; an escape is named by its character. -/
def commandName? : Token → Option String
  | command name => some name
  | escaped c => some (String.singleton c)
  | _ => none

/-- The text of a run. -/
def runText : Token → Text
  | text run => run
  | _ => []

def kept : Token → List Content
  | text run => Content.ofText run
  | command name => [.name name]
  | escaped c => [.name (String.singleton c)]
  | _ => []

/-- The name of a control word without a shape. -/
def missing : Token → List String
  | command name => if (Shape.ofCommand? name).isSome then [] else [name]
  | _ => []

theorem filterMap_name?_kept (ts : List Token) :
    (ts.flatMap kept).filterMap Content.name? = ts.filterMap commandName? := by
  induction ts with
  | nil => rfl
  | cons tok ts ih =>
    rw [List.flatMap_cons, List.filterMap_append, ih]
    cases tok with
    | text run => rw [kept, Content.filterMap_name?_ofText]; rfl
    | _ => rfl

theorem filterMap_char?_kept (ts : List Token) :
    (ts.flatMap kept).filterMap Content.char? = (ts.flatMap runText).filter isKept := by
  induction ts with
  | nil => rfl
  | cons tok ts ih =>
    rw [List.flatMap_cons, List.flatMap_cons, List.filterMap_append, List.filter_append, ih]
    cases tok with
    | text run => rw [kept, Content.filterMap_char?_ofText]; rfl
    | _ => rfl

/-- No word for an environment or for the size of a delimiter. -/
def Ordinary : Token → Prop
  | command name => Reading.IsOrdinary name
  | _ => True

theorem lasting_ordinary : Lasting Ordinary := fun _ _ _ _ _ => trivial

end Token

namespace Notice

/-- The command that was found unknown. -/
def unknownName? : Notice → Option String
  | unknownCommand name => some name
  | _ => none

def isUnknownCommand (n : Notice) : Bool := n.unknownName?.isSome

theorem unknownName?_eq_some {n : Notice} {name : String} :
    n.unknownName? = some name ↔ n = unknownCommand name := by
  cases n <;> simp [unknownName?]

theorem filter_isUnknownCommand (notices : List Notice) :
    notices.filter isUnknownCommand = (notices.filterMap unknownName?).map unknownCommand := by
  induction notices with
  | nil => rfl
  | cons n notices ih =>
    cases n with
    | unknownCommand name => exact congrArg (unknownCommand name :: ·) ih
    | _ => exact ih

theorem filterMap_noted {n : Notice} (h : n.unknownName? = none) (notices : List Notice) :
    (noted notices n).filterMap unknownName? = notices.filterMap unknownName? := by
  unfold noted
  split
  · rfl
  · rw [List.filterMap_append, List.filterMap_cons_none h, List.filterMap_nil, List.append_nil]

/-- What is noted of unknown commands is what is reported of them, each once. -/
theorem filterMap_foldl_noted (said : List Notice) :
    (said.foldl noted []).filterMap unknownName? = (said.filterMap unknownName?).eraseDups := by
  induction said using List.reverseRecOn with
  | nil => rfl
  | append_singleton said n ih =>
    rw [List.foldl_append, List.foldl_cons, List.foldl_nil, List.filterMap_append]
    cases hn : n.unknownName? with
    | none =>
      rw [filterMap_noted hn, ih, List.filterMap_cons_none hn, List.filterMap_nil, List.append_nil]
    | some name =>
      obtain rfl := unknownName?_eq_some.mp hn
      have hmem : unknownCommand name ∈ said.foldl noted [] ↔
          name ∈ said.filterMap unknownName? := by
        have hnames : name ∈ (said.foldl noted []).filterMap unknownName? ↔ _ :=
          ih ▸ List.mem_eraseDups
        rw [← hnames, List.mem_filterMap]
        simp only [unknownName?_eq_some, exists_eq_right]
      rw [List.filterMap_cons_some hn, List.filterMap_nil, eraseDups_concat, ← ih]
      by_cases hsaid : name ∈ said.filterMap unknownName?
      · rw [noted, if_pos ⟨rfl, hmem.mpr hsaid⟩, if_pos hsaid]
      · rw [noted, if_neg fun h => hsaid (hmem.mp h.2), if_neg hsaid, List.filterMap_append]
        rfl

end Notice

open Node

namespace Reading

/-! ## How often something is there -/

variable {a : Content}

/-- How often something is in some nodes. -/
def amount (a : Content) (ns : List Node) : Nat := (ns.flatMap kept).count a

/-- How often something is in some tokens. -/
def held (a : Content) (ts : List Token) : Nat := (ts.flatMap Token.kept).count a

@[simp] theorem amount_nil : amount a [] = 0 := rfl

@[simp] theorem amount_cons (n : Node) (ns : List Node) :
    amount a (n :: ns) = n.kept.count a + amount a ns := by
  rw [amount, List.flatMap_cons, List.count_append]
  rfl

@[simp] theorem amount_append (ms ns : List Node) :
    amount a (ms ++ ns) = amount a ms + amount a ns := by
  rw [amount, List.flatMap_append, List.count_append]
  rfl

@[simp] theorem amount_reverse (ns : List Node) : amount a ns.reverse = amount a ns :=
  ((List.reverse_perm ns).flatMap_right kept).count_eq a

theorem count_kept (n : Node) : n.kept.count a = n.own.count a + amount a n.children := by
  rw [kept_eq, List.count_append]
  rfl

@[simp] theorem count_leaf (t : Text) :
    (leaf t).kept.count a = (Content.ofText t).count a :=
  count_kept (leaf t)

@[simp] theorem count_group (cs : List Node) : (group cs).kept.count a = amount a cs :=
  (count_kept (group cs)).trans (Nat.zero_add _)

@[simp] theorem count_command (name : String) (args : List Node) (o : Option Node) :
    (command name args o).kept.count a =
      [Content.name name].count a + (amount a o.toList + amount a args) := by
  rw [count_kept, own, children, amount_append]

@[simp] theorem count_bare (name : String) :
    (bare name).kept.count a = [Content.name name].count a :=
  count_command name [] none

@[simp] theorem count_script (base : Node) (sub sup : Option Node) :
    (script base sub sup).kept.count a =
      base.kept.count a + (amount a sub.toList + amount a sup.toList) := by
  have hchildren := (count_kept (a := a) (script base sub sup)).trans (Nat.zero_add _)
  rw [hchildren, children, List.cons_append, amount_cons, amount_append]

@[simp] theorem held_nil : held a [] = 0 := rfl

@[simp] theorem held_cons (tok : Token) (ts : List Token) :
    held a (tok :: ts) = tok.kept.count a + held a ts := by
  rw [held, List.flatMap_cons, List.count_append]
  rfl

/-! ## Runs that are cut -/

theorem amount_pushText (run : Text) (acc : List Node) :
    amount a (pushText run acc) = (Content.ofText run).count a + amount a acc := by
  unfold pushText
  split
  · simp only [amount_cons, count_leaf, Content.ofText_append, List.count_append]
    omega
  · rw [amount_cons, count_leaf]

/-- The base of a script and what is left of the nodes. -/
theorem Takes.amount {acc rest : List Node} {base : Node} (h : Takes acc base rest) :
    base.kept.count a + amount a rest = amount a acc := by
  induction h with
  | nothing => rfl
  | blank hblank _ ih =>
    rw [ih, amount_cons, count_leaf, Content.ofText_blank hblank, List.count_nil, Nat.zero_add]
  | @text front t gap acc _ hgap =>
    simp only [amount_cons, count_leaf, Content.ofText_append, List.count_append,
      Content.ofText_blank hgap, List.count_nil]
    split
    · next hfront =>
      rw [List.isEmpty_iff.mp hfront, Content.ofText_nil, List.count_nil]
      omega
    · rw [amount_cons, count_leaf]
      omega
  | node => exact (amount_cons _ _).symm

/-- A token that is text adds what it has. -/
theorem kept_of_literal {stop : Stop} {tok : Token} {run : Text}
    (h : literal? stop tok = some run) : tok.kept = Content.ofText run := by
  rcases literal_cases h with rfl | ⟨rfl, rfl⟩ | ⟨⟨rfl, -⟩, rfl⟩ | ⟨⟨rfl | rfl, -⟩, rfl⟩ <;> rfl

theorem held_skipBlank (ts : List Token) : held a (skipBlank ts) = held a ts := by
  unfold skipBlank
  split
  · next run ts =>
    split
    · next hblank =>
      rw [held_cons, Token.kept, Content.ofText_blank (List.all_eq_true.mp hblank),
        List.count_nil, Nat.zero_add]
    · rfl
  · rfl

/-- A character is taken off a run. -/
theorem held_behind {run run' : Text} {c : Char} {ts : List Token}
    (hrun : run.trimStart = c :: run') :
    (Content.ofText [c]).count a + held a (if run'.isEmpty then ts else .text run' :: ts) =
      held a (.text run :: ts) := by
  have hsplit : Content.ofText run = Content.ofText [c] ++ Content.ofText run' := by
    rw [← List.takeWhile_append_dropWhile (p := isBlank) (l := run), Content.ofText_append,
      Content.ofText_blank fun _ => List.mem_takeWhile_imp, ← Content.ofText_append]
    exact congrArg Content.ofText hrun
  rw [held_cons, Token.kept, hsplit, List.count_append]
  split
  · next hempty =>
    rw [List.isEmpty_iff.mp hempty]
    rfl
  · rw [held_cons, Token.kept]
    omega

/-! ## Along the course -/

/-- Neither an environment nor the size of a delimiter is read. -/
def Task.IsOrdinary : Task → Prop
  | command name => Reading.IsOrdinary name
  | rows .. => False
  | _ => True

/-- What a task carries along. -/
def Task.carried (a : Content) : Task → Nat
  | nodes _ acc => amount a acc
  | command name => [Content.name name].count a
  | scripts base sub sup => base.kept.count a + (amount a sub.toList + amount a sup.toList)
  | group | argument | optional _ | arguments _ | rows _ _ _ => 0

/-- What a task has and what is ahead of it is there behind it, and nothing else. -/
theorem Course.keeps {levels : Nat} {task : Task} {ts rest : List Token} {ns : List Node}
    {said : List Notice} (h : Course levels task ts ns rest said) (htask : task.IsOrdinary)
    (hts : ∀ tok ∈ ts, tok.Ordinary) :
    amount a ns + held a rest = task.carried a + held a ts := by
  -- Where two tasks follow each other, what the first leaves ahead is what the second finds there.
  induction h with
  | atEnd | cellEnd => rw [amount_reverse, Task.carried]
  | closed hcloses =>
    rw [amount_reverse, Task.carried, held_cons]
    obtain ⟨-, rfl⟩ | ⟨-, rfl⟩ := hcloses <;> exact congrArg _ (Nat.zero_add _).symm
  | strayBrace _ _ _ ih =>
    have hrest := ih trivial (List.forall_mem_cons.mp hts).2
    simpa only [Task.carried, held_cons, Token.kept, List.count_nil, Nat.zero_add] using hrest
  | literal hrun _ ih =>
    have hrest := ih trivial (List.forall_mem_cons.mp hts).2
    simp only [Task.carried, amount_pushText, held_cons, kept_of_literal hrun] at hrest ⊢
    omega
  | braces hgroup _ ih ih' =>
    have hts := (List.forall_mem_cons.mp hts).2
    have hn := ih trivial hts
    have hrest := ih' trivial (hgroup.forall_rest Token.lasting_ordinary hts)
    simp only [Task.carried, Token.kept, amount_cons, amount_nil, held_cons, List.count_nil]
      at hn hrest ⊢
    omega
  | sign _ ih =>
    have hrest := ih trivial (List.forall_mem_cons.mp hts).2
    simp only [Task.carried, Token.kept, amount_cons, count_bare, held_cons] at hrest ⊢
    omega
  | word _ hword _ ih ih' =>
    obtain ⟨hname, hts⟩ := List.forall_mem_cons.mp hts
    have hn := ih hname hts
    have hrest := ih' trivial (hword.forall_rest Token.lasting_ordinary hts)
    simp only [Task.carried, Token.kept, amount_append, held_cons] at hn hrest ⊢
    omega
  | @marks _ _ acc _ _ _ _ _ _ _ _ _ hscripts _ ih ih' =>
    have hn := ih trivial hts
    have hrest := ih' trivial (hscripts.forall_rest Token.lasting_ordinary hts)
    -- Cutting a leaf for its last character only moves what is in the nodes read so far.
    have hbase := (takes_popBase acc).amount (a := a)
    simp only [Task.carried, amount_cons, amount_nil, Option.toList_none] at hn hrest ⊢
    omega
  | group _ ih =>
    have hrest := ih trivial hts
    simp only [Task.carried, amount_cons, count_group, amount_nil] at hrest ⊢
    omega
  | @argBlank _ run _ _ _ _ hblank _ ih =>
    have hrest := ih trivial (List.forall_mem_cons.mp hts).2
    have hrun : ∀ c ∈ run, isBlank c = true := List.dropWhile_eq_nil_iff.mp hblank
    rw [held_cons, Token.kept, Content.ofText_blank hrun, List.count_nil, Nat.zero_add]
    exact hrest
  | argChar hrun =>
    rw [← held_behind hrun, amount_cons, count_leaf, amount_nil, Task.carried]
    omega
  | argGroup _ ih =>
    have hrest := ih trivial (List.forall_mem_cons.mp hts).2
    simpa only [Task.carried, held_cons, Token.kept, List.count_nil, Nat.zero_add] using hrest
  | @argWord _ _ _ _ _ o _ _ ih =>
    obtain ⟨hname, hts⟩ := List.forall_mem_cons.mp hts
    have hrest := ih hname hts
    -- Braces stand in for a node that is not there, and they hold nothing.
    have hnode : amount a [o.getD (.group [])] = amount a o.toList := by
      cases o with
      | none => rfl
      | some n => rfl
    rw [hnode, held_cons, Token.kept, hrest, Task.carried, Task.carried]
    omega
  | argSign =>
    rw [amount_cons, count_bare, amount_nil, held_cons, Token.kept, Task.carried]
    omega
  | argMissing | noBrackets | noArguments => rfl
  | @brackets _ ts ts' _ _ _ hopen _ ih =>
    have hrest := ih trivial fun tok htok =>
      hts tok ((skipBlank_suffix ts).subset (hopen ▸ List.mem_cons_of_mem _ htok))
    rw [← held_skipBlank ts, hopen]
    simp only [Task.carried, Token.kept, amount_cons, count_group, amount_nil, held_cons,
      List.count_nil] at hrest ⊢
    omega
  | environment => exact absurd rfl htask.1
  | strayEnd => exact absurd rfl htask.2.1
  | sizer hname => exact absurd hname htask.2.2
  | known _ _ hoptional _ ih ih' =>
    have ho := ih trivial hts
    have hargs := ih' trivial (hoptional.forall_rest Token.lasting_ordinary hts)
    simp only [Task.carried, amount_cons, count_command, amount_nil] at ho hargs ⊢
    omega
  | unknownBraces _ _ _ ih =>
    have hrest := ih trivial (List.forall_mem_cons.mp hts).2
    simp only [Task.carried, Token.kept, amount_cons, count_command, amount_nil, held_cons,
      Option.toList_none, List.count_nil] at hrest ⊢
    omega
  | unknownBare =>
    rw [amount_cons, count_bare, amount_nil, Task.carried, Nat.add_zero]
  | moreArguments harg _ ih ih' =>
    have hn := ih trivial hts
    have hns := ih' trivial (harg.forall_rest Token.lasting_ordinary hts)
    simp only [Task.carried, amount_cons, amount_nil] at hn hns ⊢
    omega
  | nextCell | nextRow | lastCell | unclosed => exact htask.elim
  | subscript harg _ ih ih' | superscript harg _ ih ih' =>
    have hts := (List.forall_mem_cons.mp hts).2
    have hn := ih trivial hts
    have hrest := ih' trivial (harg.forall_rest Token.lasting_ordinary hts)
    simp only [Task.carried, Token.kept, amount_cons, amount_nil, held_cons,
      Option.toList_none, Option.toList_some, List.count_nil] at hn hrest ⊢
    omega
  | scripted =>
    rw [amount_cons, count_script, amount_nil, Task.carried, Nat.add_zero]

/-! ## Unknown commands, in order -/

/-- The names without a shape that a task has taken. -/
def Task.missing : Task → List String
  | command name => (Token.command name).missing
  | _ => []

theorem missing_of_unknown {name : String} (h : Shape.ofCommand? name = none) :
    (Token.command name).missing = [name] := by
  rw [Token.missing, h]
  rfl

theorem missing_of_known {name : String} {shape : Shape} (h : Shape.ofCommand? name = some shape) :
    (Token.command name).missing = [] := by
  rw [Token.missing, h]
  rfl

theorem missing_of_literal {stop : Stop} {tok : Token} {run : Text}
    (h : literal? stop tok = some run) : tok.missing = [] := by
  cases tok with
  | command => cases h
  | _ => rfl

theorem missing_skipBlank (ts : List Token) :
    (skipBlank ts).flatMap Token.missing = ts.flatMap Token.missing := by
  unfold skipBlank
  split
  · split <;> rfl
  · rfl

/-- Two tasks report one after the other. -/
theorem reports_append {names names' names'' : List String} {said said' : List Notice}
    (h : names = said.filterMap Notice.unknownName? ++ names')
    (h' : names' = said'.filterMap Notice.unknownName? ++ names'') :
    names = (said ++ said').filterMap Notice.unknownName? ++ names'' := by
  rw [List.filterMap_append, List.append_assoc, ← h', h]

/-- The names without a shape are reported in their order. -/
theorem Course.reports {levels : Nat} {task : Task} {ts rest : List Token} {ns : List Node}
    {said : List Notice} (h : Course levels task ts ns rest said) (htask : task.IsOrdinary)
    (hts : ∀ tok ∈ ts, tok.Ordinary) :
    task.missing ++ ts.flatMap Token.missing =
      said.filterMap Notice.unknownName? ++ rest.flatMap Token.missing := by
  induction h with
  | @atEnd _ stop _ => cases stop <;> rfl
  | closed hcloses => obtain ⟨-, rfl⟩ | ⟨-, rfl⟩ := hcloses <;> rfl
  | cellEnd | argSign | argMissing | noBrackets | noArguments | scripted => rfl
  | strayBrace _ _ _ ih | sign _ ih | argBlank _ _ ih | argGroup _ ih =>
    exact ih trivial (List.forall_mem_cons.mp hts).2
  | literal hrun _ ih =>
    rw [List.flatMap_cons, missing_of_literal hrun]
    exact ih trivial (List.forall_mem_cons.mp hts).2
  | braces hgroup _ ih ih' =>
    have hts := (List.forall_mem_cons.mp hts).2
    exact reports_append (ih trivial hts)
      (ih' trivial (hgroup.forall_rest Token.lasting_ordinary hts))
  | word _ hword _ ih ih' =>
    obtain ⟨hname, hts⟩ := List.forall_mem_cons.mp hts
    exact reports_append (ih hname hts)
      (ih' trivial (hword.forall_rest Token.lasting_ordinary hts))
  | marks _ hscripts _ ih ih' =>
    exact reports_append (ih trivial hts)
      (ih' trivial (hscripts.forall_rest Token.lasting_ordinary hts))
  | group _ ih => exact ih trivial hts
  | argChar => split <;> rfl
  | argWord _ _ ih =>
    obtain ⟨hname, hts⟩ := List.forall_mem_cons.mp hts
    exact ih hname hts
  | @brackets _ ts _ _ _ _ hopen _ ih =>
    rw [← missing_skipBlank ts, hopen]
    exact ih trivial fun tok htok =>
      hts tok ((skipBlank_suffix ts).subset (hopen ▸ List.mem_cons_of_mem _ htok))
  | environment => exact absurd rfl htask.1
  | strayEnd => exact absurd rfl htask.2.1
  | sizer hname => exact absurd hname htask.2.2
  | known _ hshape hoptional _ ih ih' =>
    rw [Task.missing, missing_of_known hshape]
    exact reports_append (ih trivial hts)
      (ih' trivial (hoptional.forall_rest Token.lasting_ordinary hts))
  | @unknownBraces _ name _ _ _ _ _ hshape _ ih =>
    rw [Task.missing, missing_of_unknown hshape]
    exact congrArg (name :: ·) (ih trivial (List.forall_mem_cons.mp hts).2)
  | unknownBare _ hshape =>
    rw [Task.missing, missing_of_unknown hshape]
    rfl
  | moreArguments harg _ ih ih' =>
    exact reports_append (ih trivial hts)
      (ih' trivial (harg.forall_rest Token.lasting_ordinary hts))
  | nextCell | nextRow | lastCell | unclosed => exact htask.elim
  | subscript harg _ ih ih' | superscript harg _ ih ih' =>
    have hts := (List.forall_mem_cons.mp hts).2
    exact reports_append (ih trivial hts)
      (ih' trivial (harg.forall_rest Token.lasting_ordinary hts))

/-! ## To the end -/

/-- Nothing is left where nodes are read to the end of the input. -/
def Task.Exhausts : Task → List Token → Prop
  | nodes stop _, rest => stop = .atEnd → rest = []
  | _, _ => True

theorem Course.exhausts {levels : Nat} {task : Task} {ts rest : List Token} {ns : List Node}
    {said : List Notice} (h : Course levels task ts ns rest said) : task.Exhausts rest := by
  induction h with
  | atEnd => exact fun _ => rfl
  | closed hcloses => obtain ⟨rfl, -⟩ | ⟨rfl, -⟩ := hcloses <;> exact nofun
  | cellEnd => exact nofun
  | strayBrace _ _ _ ih | literal _ _ ih | braces _ _ _ ih | sign _ ih | word _ _ _ _ ih
  | marks _ _ _ _ ih => exact ih
  | _ => trivial

end Reading

open Reading

theorem unknownCommands_eq (p : Parsed) :
    p.unknownCommands = p.notices.filterMap Notice.unknownName? := by
  unfold Parsed.unknownCommands
  congr 1

/-- **Nothing is lost and nothing is added**, if there is no environment and no sized delimiter. -/
theorem conservation_of_parse {limits : ReadLimits} {t : Text} {p : Parsed}
    (h : parse limits t = .ok p)
    (hordinary : ∀ name ∈ ["begin", "end", "left", "right", "middle"],
      Token.command name ∉ tokenize t) :
    p.tree.commandNames.Perm ((tokenize t).filterMap Token.commandName?) ∧
      ((p.tree.nodes.flatMap leafText).filter isKept).Perm
        (((tokenize t).flatMap Token.runText).filter isKept) ∧
      p.unknownCommands = ((tokenize t).flatMap Token.missing).eraseDups ∧
      p.notices.filter Notice.isUnknownCommand = p.unknownCommands.map .unknownCommand := by
  obtain ⟨ns, rest, said, htree, hnotices, hcourse⟩ := course_of_parse h
  have hts : ∀ tok ∈ tokenize t, tok.Ordinary := by
    intro tok htok
    cases tok with
    | command name =>
      have hname : name ∉ ["begin", "end", "left", "right", "middle"] := fun hmem =>
        hordinary name hmem htok
      simpa [Token.Ordinary, IsOrdinary, IsSizer] using hname
    | _ => trivial
  obtain rfl : rest = [] := hcourse.exhausts rfl
  have hkept : p.tree.kept.Perm ((tokenize t).flatMap Token.kept) := by
    refine List.perm_iff_count.mpr fun a => ?_
    have hkeeps := hcourse.keeps (a := a) trivial hts
    rw [held_nil, Nat.add_zero, Task.carried, amount_nil, Nat.zero_add] at hkeeps
    rw [htree, count_group, hkeeps]
    rfl
  have hreports := hcourse.reports trivial hts
  rw [List.flatMap_nil, List.append_nil] at hreports
  refine ⟨?_, ?_, ?_, ?_⟩
  · rw [← filterMap_name?_kept, ← Token.filterMap_name?_kept]
    exact hkept.filterMap _
  · rw [← filterMap_char?_kept, ← Token.filterMap_char?_kept]
    exact hkept.filterMap _
  · rw [unknownCommands_eq, hnotices, Notice.filterMap_foldl_noted, ← hreports]
    rfl
  · rw [unknownCommands_eq]
    exact Notice.filter_isUnknownCommand p.notices

/-- A command with the first of two digits as its argument, and the other digit with an escape as
its subscript. -/
theorem conservation_of_parse_percent :
    ∃ p, parse (.untimed 1) "a[\\vec 12_\\%".toList = .ok p ∧
      tokenize "a[\\vec 12_\\%".toList = [.text ['a'], .openBracket, .command "vec",
        .text [' ', '1', '2'], .sub, .escaped '%'] ∧
      p.tree.commandNames.Perm ["vec", "%"] ∧
      ((p.tree.nodes.flatMap leafText).filter isKept).Perm ['a', '1', '2'] ∧
      p.unknownCommands = [] ∧ p.notices.filter Notice.isUnknownCommand = [] := by
  have htokens : tokenize "a[\\vec 12_\\%".toList = [.text ['a'], .openBracket, .command "vec",
      .text [' ', '1', '2'], .sub, .escaped '%'] := by decide +kernel
  have hread : (parse (.untimed 1) "a[\\vec 12_\\%".toList).toOption.map (·.notices) = some [] := by
    decide +kernel
  obtain ⟨p, hparse, -⟩ := exists_parse_of_map hread
  obtain ⟨hnames, hchars, hmissing, hfilter⟩ :=
    conservation_of_parse hparse (by rw [htokens]; decide)
  rw [htokens] at hnames hchars hmissing
  rw [hmissing] at hfilter
  exact ⟨p, hparse, htokens, hnames, hchars, hmissing, hfilter⟩

end SpokenMath
