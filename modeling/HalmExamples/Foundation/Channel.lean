import Mathlib.Data.List.Basic

/-!
# A channel that is drained in turns

Items arrive at any time and raise a flag.  A reader lowers the flag, takes items out of
the queue and passes them on piecewise; it goes back to sleep when it has found the queue
empty and holds nothing.  Whatever the interleaving, no item is lost, repeated or
overtaken, and none is left behind by a sleeping reader whose flag is down.
-/

set_option autoImplicit false

namespace Foundation

structure Channel (α : Type) where
  received : List α
  input : List α
  /-- Taken out of the queue and not passed on. -/
  transit : List α
  written : List α
  flag : Bool
  draining : Bool

namespace Channel
variable {α : Type}

inductive Step : Channel α → Channel α → Prop where
  | still (channel : Channel α) : Step channel channel
  | arrive (channel : Channel α) (items : List α) :
      Step channel { channel with
        received := channel.received ++ items, input := channel.input ++ items, flag := true }
  | begin (channel : Channel α) (holdsNone : channel.transit = []) :
      Step channel { channel with flag := false, draining := true }
  | take (channel : Channel α) (count : Nat) (drains : channel.draining = true)
      (holdsNone : channel.transit = []) :
      Step channel { channel with
        input := channel.input.drop count, transit := channel.input.take count }
  | put (channel : Channel α) (passed kept : List α) (split : channel.transit = passed ++ kept) :
      Step channel { channel with transit := kept, written := channel.written ++ passed }
  | rest (channel : Channel α) (empty : channel.input = []) (holdsNone : channel.transit = []) :
      Step channel { channel with draining := false }

structure Sound (channel : Channel α) : Prop where
  lossless : channel.received = channel.written ++ channel.transit ++ channel.input
  holds : channel.transit ≠ [] → channel.draining = true
  awake : channel.input ≠ [] → channel.flag = true ∨ channel.draining = true

theorem Step.sound {before after : Channel α} (step : Step before after)
    (sound : Sound before) : Sound after := by
  have lossless := sound.lossless
  cases step with
  | still => exact sound
  | arrive items =>
      refine ⟨?_, sound.holds, fun _ => Or.inl rfl⟩
      dsimp only
      rw [lossless, List.append_assoc _ before.input items]
  | begin holdsNone => exact ⟨lossless, fun _ => rfl, fun _ => Or.inr rfl⟩
  | take count drains holdsNone =>
      refine ⟨?_, fun _ => drains, fun _ => Or.inr drains⟩
      rw [holdsNone, List.append_nil] at lossless
      dsimp only
      rw [lossless, List.append_assoc, List.take_append_drop]
  | put passed kept split =>
      refine ⟨?_, ?_, sound.awake⟩
      · rw [split] at lossless
        dsimp only
        rw [lossless, List.append_assoc before.written passed kept]
      · intro keeps
        apply sound.holds
        rw [split]
        exact List.append_ne_nil_of_right_ne_nil _ keeps
  | rest empty holdsNone =>
      exact ⟨lossless, fun holds => absurd holdsNone holds, fun more => absurd empty more⟩

theorem Sound.in_order {channel : Channel α} (sound : Sound channel) :
    channel.written <+: channel.received := by
  rw [sound.lossless, List.append_assoc]
  exact List.prefix_append _ _

/-- A sleeping reader has passed everything on. -/
theorem Sound.all_written {channel : Channel α} (sound : Sound channel)
    (unflagged : channel.flag = false) (asleep : channel.draining = false) :
    channel.written = channel.received := by
  have none : channel.transit = [] := by
    by_contra holds
    exact Bool.false_ne_true (asleep.symm.trans (sound.holds holds))
  have empty : channel.input = [] := by
    by_contra more
    rcases sound.awake more with flagged | drains
    · exact Bool.false_ne_true (unflagged.symm.trans flagged)
    · exact Bool.false_ne_true (asleep.symm.trans drains)
  rw [sound.lossless, none, empty, List.append_nil, List.append_nil]

end Channel

end Foundation
