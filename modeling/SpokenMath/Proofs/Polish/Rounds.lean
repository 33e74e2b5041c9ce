import SpokenMath.Proofs.Polish.Capitals
import SpokenMath.Proofs.Polish.Quantities

/-!
# Rounds until nothing changes

A text is **settled** if only two steps of a round can still change it: taking out repeated words,
and making pauses in front of powers. A round leaves a settled text (`settled_round`), and these two
steps keep it settled.

Pauses are made twice at most (`PowersBehind`), and repeated words that appear with them end in a
pause, so taking them out makes no new power. That gives the rounds that can change something: the
first one, two that make pauses, and one that takes out the words that the last pauses repeat. The
next one changes nothing.

**Theorem (`polish_polish`).** Polishing a second time changes nothing, and a polished text is neat.
-/

namespace SpokenMath

namespace Polish

variable {s t v w : Text} {a : Audience}

/-! ## Settled texts -/

/-- What a round leaves behind, and the rounds behind it keep. -/
structure Settled (a : Audience) (t : Text) : Prop where
  neat : Neat t
  differential : pauseBeforeDifferential t = t
  phrases : ∀ e ∈ vocabulary a, ¬HasPhrase e.1.toList t
  touchy : NoTouchyRepeat a t
  capitalized : Capitalized t

/-- **A round settles a text.** -/
theorem settled_round (a : Audience) (t : Text) : Settled a (round a t) := by
  have hneat : Neat (avoidRepetition (normalize t)) := (neat_normalize t).avoidRepetition
  have hrepeats := isChain_pieces_avoidRepetition (normalize t)
  have htouchy : NoTouchyRepeat a (avoidRepetition (normalize t)) :=
    hrepeats.imp fun _ _ hnot hrepeat => absurd hrepeat hnot
  have hround : round a t =
      capitalize (chooseWords a (insertPauses (avoidRepetition (normalize t)))) := rfl
  generalize avoidRepetition (normalize t) = s at hneat htouchy hround
  have hfirst := paused_pauseBeforeDifferential s
  have hsecond := paused_pauseAfterQuantity (pauseBeforeDifferential s)
  have hneat' : Neat (insertPauses s) := hsecond.neat (hfirst.neat hneat)
  have hdifferential : pauseBeforeDifferential (insertPauses s) = insertPauses s :=
    hsecond.pauseBeforeDifferential_eq hneat' (pauseBeforeDifferential_twice s)
  have hlower := (lower_capitalize (chooseWords a (insertPauses s))).symm
  rw [hround]
  exact {
    neat := hneat'.chooseWords.congr hlower
    differential :=
      pauseBeforeDifferential_capitalize (pauseBeforeDifferential_chooseWords hdifferential)
    phrases := fun e he h => not_hasPhrase_chooseWords e he (h.congr hlower.symm)
    touchy := (((htouchy.paused hfirst).paused hsecond).chooseWords).congr hlower
    capitalized := capitalized_capitalize _ }

namespace Settled

theorem paused (h : Settled a s) (hs : Paused s t) : Settled a t where
  neat := hs.neat h.neat
  differential := hs.pauseBeforeDifferential_eq (hs.neat h.neat) h.differential
  phrases e he hphrase :=
    h.phrases e he (hphrase.of_paused (entry_of_mem_vocabulary e he).phrase hs)
  touchy := h.touchy.paused hs
  capitalized := h.capitalized.paused hs

theorem repetition {front back : Text} (hr : Repetition front v w back)
    (h : Settled a (front ++ (v ++ ' ' :: (w ++ back)))) : Settled a (front ++ (v ++ back)) := by
  have htouchy : ¬Touchy a v := noTouchyRepeat_iff.mp h.touchy front v w back hr rfl
  exact {
    neat := hr.neat h.neat
    differential := hr.pauseBeforeDifferential_eq h.neat (fun y e hv hy => by
      by_contra hend
      exact htouchy (hv ▸ .letter hy (by simpa using hend))) h.differential
    phrases := fun e he hphrase => h.phrases e he (hphrase.of_repetition
      (entry_of_mem_vocabulary e he).phrase hr fun q hq hfits => htouchy (.middle he hq hfits))
    touchy := h.touchy.repetition hr
    capitalized := h.capitalized.repetition hr }

theorem avoidRepetition (h : Settled a t) : Settled a (avoidRepetition t) :=
  avoidRepetition_induction (fun _ _ _ _ hr => repetition hr) h

/-- **On a settled text a round takes out repeated words and makes pauses in front of powers.** -/
theorem round_eq (h : Settled a t) :
    round a t = pauseAfterQuantity (Polish.avoidRepetition t) := by
  have hs := h.avoidRepetition
  have hu := hs.paused (paused_pauseAfterQuantity _)
  rw [round, normalize_of_neat h.neat, insertPauses, hs.differential,
    chooseWords_eq_self hu.phrases, capitalize_of_capitalized hu.capitalized]

end Settled

/-! ## Rounds -/

/-- A round behind another one: repeated words end in pauses, and a power without a pause stands
behind the pause of another one. -/
theorem paused_round (h : Settled a t) : RepeatsPauses (round a t) ∧
    PowersBehind (pausedTo <:+ ·) (round a t) := by
  rw [h.round_eq]
  exact ⟨(paused_pauseAfterQuantity _).repeatsPauses (isChain_pieces_avoidRepetition t),
    powersBehind_pauseAfterQuantity _⟩

/-- The next one leaves no power without a pause. -/
theorem powersBehind_round (h : Settled a t) (hrepeats : RepeatsPauses t)
    (hpowers : PowersBehind (pausedTo <:+ ·) t) : PowersBehind (fun _ => False) (round a t) := by
  rw [h.round_eq]
  exact (hrepeats.avoidRepetition pausedTo_suffix_congr hpowers).pauseAfterQuantity

/-- Where every power has its pause, a round takes out repeated words only. -/
theorem round_eq_avoidRepetition (h : Settled a t) (hrepeats : RepeatsPauses t)
    (hpowers : PowersBehind (fun _ => False) t) :
    round a t = avoidRepetition t ∧ PowersBehind (fun _ => False) (avoidRepetition t) := by
  have hbehind := hrepeats.avoidRepetition (fun _ _ _ h => h) hpowers
  exact ⟨h.round_eq.trans hbehind.pauseAfterQuantity_eq, hbehind⟩

/-- **Four rounds leave nothing for another one.** -/
theorem round_iterate (a : Audience) (t : Text) :
    round a ((round a)^[4] t) = (round a)^[4] t := by
  obtain ⟨hrepeats₂, hpowers₂⟩ := paused_round (settled_round a t)
  generalize hsecond : round a (round a t) = t₂ at hrepeats₂ hpowers₂
  have hsettled₂ : Settled a t₂ := hsecond ▸ settled_round a (round a t)
  have hpowers₃ := powersBehind_round hsettled₂ hrepeats₂ hpowers₂
  obtain ⟨hrepeats₃, -⟩ := paused_round hsettled₂
  obtain ⟨hfourth, hpowers₄⟩ := round_eq_avoidRepetition (settled_round a t₂) hrepeats₃ hpowers₃
  have hsettled₄ : Settled a (avoidRepetition (round a t₂)) :=
    hfourth ▸ settled_round a (round a t₂)
  have hiterate : (round a)^[4] t = avoidRepetition (round a t₂) := by
    rw [← hfourth, ← hsecond]
    rfl
  rw [hiterate, hsettled₄.round_eq,
    avoidRepetition_of_isChain (isChain_pieces_avoidRepetition (round a t₂)),
    hpowers₄.pauseAfterQuantity_eq]

theorem rounds_eq_iterate (a : Audience) (n : Nat) (t : Text) : rounds a n t = (round a)^[n] t := by
  induction n generalizing t with
  | zero => rfl
  | succ n ih =>
    simp only [rounds, Function.iterate_succ_apply]
    split
    · next hfixed => rw [hfixed, Function.iterate_fixed hfixed]
    · exact ih (round a t)

end Polish

/-- **A polished text is settled, and another round changes nothing.** -/
theorem settled_polish (a : Audience) (t : Text) :
    Polish.Settled a (polish a t) ∧ Polish.round a (polish a t) = polish a t := by
  rw [polish, Polish.rounds_eq_iterate]
  refine ⟨?_, Polish.round_iterate a t⟩
  rw [Polish.maxRounds, Function.iterate_succ_apply']
  exact Polish.settled_round a _

/-- **Polishing a second time changes nothing, and a polished text is neat.** -/
theorem polish_polish (a : Audience) (t : Text) :
    polish a (polish a t) = polish a t ∧ Polish.Neat (polish a t) := by
  obtain ⟨hsettled, hfixed⟩ := settled_polish a t
  refine ⟨?_, hsettled.neat⟩
  rw [polish, Polish.rounds_eq_iterate, Function.iterate_fixed hfixed]

end SpokenMath
