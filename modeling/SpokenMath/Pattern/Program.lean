import SpokenMath.Pattern.Syntax

/-!
# Programs

A regular expression is matched by a **program**, a row of instructions that are carried out one
after the other unless one says otherwise. A fork goes on at two places, and the first of them is
preferred. What an expression matches is what a run of its instructions reads, from the first one
up to the place right behind them.

An optional repetition of something that may match the empty stretch is an option of at least one
round, so that the preferred way through an empty round is kept.
-/

namespace SpokenMath

/-- An instruction. -/
inductive Instr
  /-- The match is complete. -/
  | accept
  /-- Reads this character. -/
  | char (c : Char)
  /-- Reads a character of a set. -/
  | set (s : CharSet)
  /-- Goes on only at certain places. -/
  | anchor (a : Anchor)
  /-- Goes on at two instructions. -/
  | fork (preferred other : Nat)
  /-- Goes on elsewhere. -/
  | jump (target : Nat)
  /-- Remembers the place under a number. -/
  | save (slot : Nat)
  deriving DecidableEq, Repr

/-- Applies a function so many times. -/
def iterate {α : Type} (f : α → α) : Nat → α → α
  | 0, x => x
  | n + 1, x => iterate f n (f x)

theorem size_iterate {f : Array Instr → Array Instr} {k : Nat}
    (h : ∀ code, (f code).size = code.size + k) (n : Nat) (code : Array Instr) :
    (iterate f n code).size = code.size + n * k := by
  induction n generalizing code with
  | zero => simp [iterate]
  | succ n ih =>
    rw [iterate, ih, h, Nat.succ_mul]
    omega

namespace Regex

/-- A fork between going in and going on, in the order that greed tells. -/
def branch (greedy : Bool) (inside behind : Nat) : Instr :=
  if greedy then .fork inside behind else .fork behind inside

/-- The number of instructions of an expression. -/
def codeSize : Regex → Nat
  | empty => 0
  | literal t => t.length
  | set _ | anchor _ => 1
  | seq a b => a.codeSize + b.codeSize
  | alt a b => a.codeSize + b.codeSize + 2
  | loop a low none _ => if low = 0 then a.codeSize + 2 else low * a.codeSize + 1
  | loop a low (some high) _ => low * a.codeSize + (high - low) * (a.codeSize + 1)
  | group _ a => a.codeSize + 2

/-- The instructions of an expression behind others. -/
def emit : Regex → Array Instr → Array Instr
  | empty, code => code
  | literal t, code => t.foldl (fun code c => code.push (.char c)) code
  | set s, code => code.push (.set s)
  | anchor a, code => code.push (.anchor a)
  | seq a b, code => emit b (emit a code)
  | alt a b, code =>
    let second := code.size + a.codeSize + 2
    let code := emit a (code.push (.fork (code.size + 1) second))
    emit b (code.push (.jump (second + b.codeSize)))
  | loop a low none greedy, code =>
    if low = 0 then
      let first := code.size
      let behind := first + a.codeSize + 2
      let code := emit a (code.push (branch greedy (first + 1) behind))
      code.push (if a.nullable then branch greedy (first + 1) behind else .jump first)
    else
      let code := iterate (emit a) low code
      code.push (branch greedy (code.size - a.codeSize) (code.size + 1))
  | loop a low (some high) greedy, code =>
    let code := iterate (emit a) low code
    let behind := code.size + (high - low) * (a.codeSize + 1)
    iterate (fun code => emit a (code.push (branch greedy (code.size + 1) behind))) (high - low)
      code
  | group n a, code =>
    (emit a (code.push (.save (2 * n)))).push (.save (2 * n + 1))

/-- An expression has as many instructions as its size tells, so jumps over it go right behind. -/
theorem size_emit (a : Regex) (code : Array Instr) :
    (a.emit code).size = code.size + a.codeSize := by
  induction a generalizing code with
  | empty | literal | set | anchor => simp [emit, codeSize]
  | seq a b iha ihb =>
    simp [emit, codeSize, iha, ihb]
    omega
  | alt a b iha ihb =>
    simp [emit, codeSize, iha, ihb]
    omega
  | group n a ih =>
    simp [emit, codeSize, ih]
    omega
  | loop a low high greedy ih =>
    cases high with
    | none =>
      by_cases h : low = 0
      · simp [emit, codeSize, h, ih]
        omega
      · simp [emit, codeSize, h, size_iterate ih]
        omega
    | some high =>
      simp only [emit, codeSize]
      rw [size_iterate (k := a.codeSize + 1), size_iterate ih]
      · omega
      · intro code
        simp [ih]
        omega

end Regex

/-- A program. -/
structure Program where
  code : Array Instr
  /-- The characters that a match can start with, unless it can be empty. -/
  starts : Option CharSet
  deriving DecidableEq, Repr

/-- The program of an expression. -/
def Regex.program (a : Regex) : Program :=
  { code := (a.emit #[]).push .accept
    starts := if a.nullable then none else some a.starts }

end SpokenMath
