import SpokenMath.Markup.Reader

/-!
# What the limits of a reading decide

Two readers that differ in the limit on nesting and in the clock do the same, step by step, until
the one with the lower limits refuses to go on (`Lowered`). So a text has the same tree under all
limits under which it has one, and higher limits refuse nothing that lower ones let through.

**Theorem (`parse_lowered`).** Under a lower limit on nesting a text reads as it does under the
higher one, or it is refused for nesting one level deeper than the lower limit.
-/

namespace SpokenMath

/-- The result `x` under lower limits, beside the result `y`: the same, or it is refused. -/
def Lowered {ε α : Type} (refused : ε → Prop) (x y : Except ε α) : Prop :=
  x = y ∨ ∃ error, refused error ∧ x = .error error

namespace Lowered

variable {ε α β : Type} {refused : ε → Prop} {x y : Except ε α} {f g : α → Except ε β}

theorem refl (x : Except ε α) : Lowered refused x x := .inl rfl

theorem bind (h : Lowered refused x y) (hf : ∀ a, Lowered refused (f a) (g a)) :
    Lowered refused (x >>= f) (y >>= g) := by
  rcases h with rfl | ⟨error, herror, rfl⟩
  · cases x with
    | error e => exact refl _
    | ok a => exact hf a
  · exact .inr ⟨error, herror, rfl⟩

/-- What is not refused is the same. -/
theorem eq_of_ok {a : α} (h : Lowered refused x y) (hx : x = .ok a) : y = .ok a := by
  rcases h with rfl | ⟨error, -, rfl⟩
  · exact hx
  · cases hx

end Lowered

namespace ReadLimits

/-- The first level that a limit refuses. -/
def tooDeep (limits : ReadLimits) : ReadError := .tooDeep (limits.maxDepth + 1) limits.maxDepth

/-- The same clock, and a limit on nesting that is no higher. -/
structure Below (low high : ReadLimits) : Prop where
  maxDepth_le : low.maxDepth ≤ high.maxDepth
  spentAt_eq : low.deadline.spentAt = high.deadline.spentAt

/-- A limit on nesting that is no higher, and a clock that shows the same unless the budget is
spent. What is more is refused. -/
structure Tighter (refused : ReadError → Prop) (low high : ReadLimits) : Prop where
  maxDepth_le : low.maxDepth ≤ high.maxDepth
  refused_tooDeep : refused low.tooDeep
  spentAt_eq_or : ∀ moment, low.deadline.spentAt moment = high.deadline.spentAt moment ∨
    ∃ elapsed, refused (.outOfTime elapsed) ∧ low.deadline.spentAt moment = some elapsed

theorem Below.tighter {low high : ReadLimits} (h : low.Below high) :
    Tighter (· = low.tooDeep) low high :=
  ⟨h.maxDepth_le, rfl, fun moment => .inl (congrFun h.spentAt_eq moment)⟩

/-- A limit on nesting alone. -/
def untimed (maxDepth : Nat) : ReadLimits := ⟨maxDepth, .never 0⟩

end ReadLimits

namespace Reading

/-- A clock that never runs out. -/
def Patient (limits : ReadLimits) : Prop := ∀ moment, limits.deadline.spentAt moment = none

theorem patient_untimed (maxDepth : Nat) : Patient (.untimed maxDepth) := fun _ => rfl

variable {refused : ReadError → Prop} {low high : ReadLimits} {supply depth : Nat} {s : Reading}

theorem tick_lowered (h : ReadLimits.Tighter refused low high) (s : Reading) :
    Lowered refused (s.tick low) (s.tick high) := by
  unfold tick
  dsimp only
  split
  · rcases h.spentAt_eq_or (.reading (s.steps + 1)) with heq | ⟨elapsed, hrefused, hspent⟩
    · rw [heq]
      exact .refl _
    · rw [hspent]
      exact .inr ⟨_, hrefused, rfl⟩
  · exact .refl _

/-- Going deeper is where the limits part. -/
theorem deeper_lowered {α : Type} {f g : Nat → Except ReadError α}
    (h : ReadLimits.Tighter refused low high)
    (hdepth : depth ≤ low.maxDepth)
    (hf : ∀ inner ≤ low.maxDepth, Lowered refused (f inner) (g inner)) :
    Lowered refused (deeper low depth >>= f) (deeper high depth >>= g) := by
  have hle := h.maxDepth_le
  unfold deeper
  by_cases hlow : depth + 1 > low.maxDepth
  · have hlast : depth = low.maxDepth := by omega
    rw [if_pos hlow, hlast]
    exact .inr ⟨_, h.refused_tooDeep, rfl⟩
  · have hhigh : ¬depth + 1 > high.maxDepth := by omega
    rw [if_neg hlow, if_neg hhigh]
    exact hf (depth + 1) (by omega)

theorem times_lowered {f g : Reading → Except ReadError (Node × Reading)}
    (hf : ∀ s, Lowered refused (f s) (g s)) (n : Nat) (s : Reading) :
    Lowered refused (times f n s) (times g n s) := by
  induction n generalizing s with
  | zero => exact .refl _
  | succ n ih => exact (hf s).bind fun r => (ih r.2).bind fun _ => .refl _

/-- Every part of a reading with so much supply is lowered. -/
structure LoweredWith (refused : ReadError → Prop) (low high : ReadLimits) (supply : Nat) :
    Prop where
  nodes : ∀ depth ≤ low.maxDepth, ∀ stop nodes s,
    Lowered refused (readNodes low supply depth stop nodes s)
      (readNodes high supply depth stop nodes s)
  group : ∀ depth ≤ low.maxDepth, ∀ s,
    Lowered refused (readGroup low supply depth s) (readGroup high supply depth s)
  argument : ∀ depth ≤ low.maxDepth, ∀ s,
    Lowered refused (readArgument low supply depth s) (readArgument high supply depth s)
  optional : ∀ depth ≤ low.maxDepth, ∀ s,
    Lowered refused (readOptional low supply depth s) (readOptional high supply depth s)
  command : ∀ depth ≤ low.maxDepth, ∀ name s,
    Lowered refused (readCommand low supply depth name s)
      (readCommand high supply depth name s)
  environment : ∀ depth ≤ low.maxDepth, ∀ s,
    Lowered refused (readEnvironment low supply depth s) (readEnvironment high supply depth s)
  rows : ∀ depth ≤ low.maxDepth, ∀ name rows row s,
    Lowered refused (readRows low supply depth name rows row s)
      (readRows high supply depth name rows row s)
  scripts : ∀ depth ≤ low.maxDepth, ∀ base sub sup s,
    Lowered refused (readScripts low supply depth base sub sup s)
      (readScripts high supply depth base sub sup s)

namespace LoweredWith

theorem zero : LoweredWith refused low high 0 := by
  constructor <;> intros
  · simp only [readNodes]; exact .refl _
  · simp only [readGroup]; exact .refl _
  · simp only [readArgument]; exact .refl _
  · simp only [readOptional]; exact .refl _
  · simp only [readCommand]; exact .refl _
  · simp only [readEnvironment]; exact .refl _
  · simp only [readRows]; exact .refl _
  · simp only [readScripts]; exact .refl _

variable (ih : LoweredWith refused low high supply) (h : ReadLimits.Tighter refused low high)
  (hdepth : depth ≤ low.maxDepth)

include ih hdepth

theorem rows_succ (name : String) (rows : List (List Node)) (row : List Node) (s : Reading) :
    Lowered refused (readRows low (supply + 1) depth name rows row s)
      (readRows high (supply + 1) depth name rows row s) := by
  simp only [readRows]
  refine (ih.nodes depth hdepth _ _ _).bind fun r => ?_
  split
  · exact ih.rows depth hdepth _ _ _ _
  · exact ih.rows depth hdepth _ _ _ _
  · exact .refl _
  · exact .refl _

theorem scripts_succ (base : Node) (sub sup : Option Node) (s : Reading) :
    Lowered refused (readScripts low (supply + 1) depth base sub sup s)
      (readScripts high (supply + 1) depth base sub sup s) := by
  unfold readScripts
  split
  · exact (ih.argument depth hdepth _).bind fun _ => ih.scripts depth hdepth _ _ _ _
  · exact (ih.argument depth hdepth _).bind fun _ => ih.scripts depth hdepth _ _ _ _
  · exact .refl _

theorem command_succ (name : String) (s : Reading) :
    Lowered refused (readCommand low (supply + 1) depth name s)
      (readCommand high (supply + 1) depth name s) := by
  simp only [readCommand]
  split
  · exact (ih.environment depth hdepth _).bind fun _ => .refl _
  split
  · exact .refl _
  split
  · exact .refl _
  split
  · have hargs := fun n s => times_lowered (ih.argument depth hdepth) n s
    split
    · exact (ih.optional depth hdepth _).bind fun r => (hargs _ _).bind fun _ => .refl _
    · exact (Lowered.refl _).bind fun r => (hargs _ _).bind fun _ => .refl _
  · split
    · exact (ih.group depth hdepth _).bind fun _ => .refl _
    · exact .refl _

include h

theorem nodes_succ (stop : Stop) (nodes : List Node) (s : Reading) :
    Lowered refused (readNodes low (supply + 1) depth stop nodes s)
      (readNodes high (supply + 1) depth stop nodes s) := by
  simp only [readNodes]
  refine (tick_lowered h _).bind fun s => ?_
  split
  · exact .refl _
  · split
    · exact .refl _
    · split
      · exact .refl _
      · exact ih.nodes depth hdepth stop nodes _
  · split
    · exact .refl _
    · exact ih.nodes depth hdepth stop _ _
  · exact ih.nodes depth hdepth stop _ _
  · exact (ih.group depth hdepth _).bind fun r => ih.nodes depth hdepth stop _ _
  · exact ih.nodes depth hdepth stop _ _
  · exact ih.nodes depth hdepth stop _ _
  · split
    · exact .refl _
    · exact (ih.command depth hdepth _ _).bind fun r => ih.nodes depth hdepth stop _ _
  · exact (ih.scripts depth hdepth _ _ _ _).bind fun r => ih.nodes depth hdepth stop _ _
  · exact (ih.scripts depth hdepth _ _ _ _).bind fun r => ih.nodes depth hdepth stop _ _
  · split
    · exact .refl _
    · exact ih.nodes depth hdepth stop _ _
  · split
    · exact .refl _
    · exact ih.nodes depth hdepth stop _ _

theorem group_succ (s : Reading) :
    Lowered refused (readGroup low (supply + 1) depth s)
      (readGroup high (supply + 1) depth s) := by
  simp only [readGroup]
  exact deeper_lowered h hdepth fun inner hinner =>
    (ih.nodes inner hinner _ _ _).bind fun _ => .refl _

theorem argument_succ (s : Reading) :
    Lowered refused (readArgument low (supply + 1) depth s)
      (readArgument high (supply + 1) depth s) := by
  simp only [readArgument]
  refine (tick_lowered h _).bind fun s => ?_
  split
  · split
    · exact ih.argument depth hdepth _
    · exact .refl _
  · exact ih.group depth hdepth _
  · split
    · exact .refl _
    · exact deeper_lowered h hdepth fun inner hinner =>
        (ih.command inner hinner _ _).bind fun _ => .refl _
  · exact .refl _
  · exact .refl _

theorem optional_succ (s : Reading) :
    Lowered refused (readOptional low (supply + 1) depth s)
      (readOptional high (supply + 1) depth s) := by
  simp only [readOptional]
  split
  · exact deeper_lowered h hdepth fun inner hinner =>
      (ih.nodes inner hinner _ _ _).bind fun _ => .refl _
  · exact .refl _

theorem environment_succ (s : Reading) :
    Lowered refused (readEnvironment low (supply + 1) depth s)
      (readEnvironment high (supply + 1) depth s) := by
  simp only [readEnvironment]
  refine deeper_lowered h hdepth fun inner hinner => ?_
  have hrest := fun n name s => (times_lowered (ih.argument inner hinner) n s).bind fun r =>
    (ih.rows inner hinner name [] [] r.2).bind fun r => Lowered.refl
      (.ok (Node.environment name (dropEmptyRows r.1).reverse, r.2))
  split
  · exact (ih.optional inner hinner _).bind fun r => hrest _ _ _
  · exact (Lowered.refl _).bind fun r => hrest _ _ _

end LoweredWith

theorem loweredWith (h : ReadLimits.Tighter refused low high) (supply : Nat) :
    LoweredWith refused low high supply := by
  induction supply with
  | zero => exact .zero
  | succ supply ih => exact {
      nodes := fun _ hdepth => ih.nodes_succ h hdepth
      group := fun _ hdepth => ih.group_succ h hdepth
      argument := fun _ hdepth => ih.argument_succ h hdepth
      optional := fun _ hdepth => ih.optional_succ h hdepth
      command := fun _ hdepth => ih.command_succ hdepth
      environment := fun _ hdepth => ih.environment_succ h hdepth
      rows := fun _ hdepth => ih.rows_succ hdepth
      scripts := fun _ hdepth => ih.scripts_succ hdepth }

end Reading

theorem parse_of_tighter {refused : ReadError → Prop} {low high : ReadLimits}
    (h : ReadLimits.Tighter refused low high) (t : Text) :
    Lowered refused (parse low t) (parse high t) := by
  have hnodes := (Reading.loweredWith h (Reading.readingSupply (tokenize t))).nodes 0
    (Nat.zero_le _) .atEnd [] ⟨tokenize t, 0, []⟩
  unfold parse
  rcases h.spentAt_eq_or .beforeReading with heq | ⟨elapsed, hrefused, hspent⟩
  · rw [heq]
    split
    · exact .refl _
    · rcases hnodes with heq | ⟨error, hrefused, heq⟩
      · simp only [heq]
        exact .refl _
      · simp only [heq]
        exact .inr ⟨error, hrefused, rfl⟩
  · simp only [hspent]
    exact .inr ⟨_, hrefused, rfl⟩

/-- **A lower limit changes no tree.** It can only refuse a text, for nesting too deep. -/
theorem parse_lowered {low high : ReadLimits} (h : low.Below high) (t : Text) :
    parse low t = parse high t ∨ parse low t = .error low.tooDeep := by
  rcases parse_of_tighter h.tighter t with heq | ⟨error, rfl, heq⟩
  · exact .inl heq
  · exact .inr heq

/-- On one clock a text has one tree, whatever the limit on nesting. -/
theorem parse_unique {limits limits' : ReadLimits}
    (hclock : limits.deadline.spentAt = limits'.deadline.spentAt) {t : Text} {p p' : Parsed}
    (h : parse limits t = .ok p) (h' : parse limits' t = .ok p') : p = p' := by
  have heq : parse limits t = parse limits' t := by
    rcases Nat.le_total limits.maxDepth limits'.maxDepth with hle | hle
    · exact (parse_lowered ⟨hle, hclock⟩ t).resolve_right fun herror => by simp [h] at herror
    · exact ((parse_lowered ⟨hle, hclock.symm⟩ t).resolve_right fun herror => by
        simp [h'] at herror).symm
  exact Except.ok.inj (h.symm.trans (heq.trans h'))

/-- What is read is read in the same way without a clock and under any higher limit on nesting. -/
theorem parse_untimed {limits : ReadLimits} {maxDepth : Nat} (hle : limits.maxDepth ≤ maxDepth)
    {t : Text} {p : Parsed} (h : parse limits t = .ok p) : parse (.untimed maxDepth) t = .ok p := by
  have htighter : ReadLimits.Tighter (fun _ => True) limits (.untimed maxDepth) := by
    refine ⟨hle, trivial, fun moment => ?_⟩
    cases hspent : limits.deadline.spentAt moment with
    | none => exact .inl rfl
    | some elapsed => exact .inr ⟨elapsed, trivial, rfl⟩
  exact (parse_of_tighter htighter t).eq_of_ok h

/-- A text has one tree, whatever the limits and the clock. -/
theorem Parsed.unique {limits limits' : ReadLimits} {t : Text} {p p' : Parsed}
    (h : parse limits t = .ok p) (h' : parse limits' t = .ok p') : p = p' := by
  have hp := parse_untimed (Nat.le_max_left limits.maxDepth limits'.maxDepth) h
  have hp' := parse_untimed (Nat.le_max_right limits.maxDepth limits'.maxDepth) h'
  exact Except.ok.inj (hp.symm.trans hp')

theorem exists_parse_of_map {α : Type} {limits : ReadLimits} {t : Text} {f : Parsed → α} {a : α}
    (h : (parse limits t).toOption.map f = some a) : ∃ p, parse limits t = .ok p ∧ f p = a := by
  cases hparse : parse limits t with
  | error e => simp [hparse, Except.toOption] at h
  | ok p =>
    rw [hparse] at h
    exact ⟨p, rfl, Option.some.inj h⟩

end SpokenMath
