import VibeWorkflow.ShutdownProofs

/-!
# How a pump leaves its workflow

A pump that settles in a running process should leave the row ended, blocked or waiting.  The
driver has returns that do not: the create loop returns on the time limit and on the abort
signal without a write, so do the result loop and the revision gate on the abort signal, and an
exception of an awaited call is swallowed; and a row may be put back to `running` after the pump
last looked at it.  Every other return has made its write.

* `settle_not_running` — a pump with a write behind it leaves no running row.
-/

namespace VibeRuntime

open VibeJson VibeContract VibeRouting VibeTemplate VibeValidator VibeStore VibeAdmission VibeControl
open AsyncLogic

/-! ## Events -/

/-- Events are only appended. -/
theorem Effect.events {op : Op} {w w' : World} (h : Effect op w w') :
    ∃ new, w'.db.events = w.db.events ++ new := by
  cases h with
  | started _ => exact ⟨_, rfl⟩
  | stepStarted _ => exact ⟨_, rfl⟩
  | bound _ _ => exact ⟨_, rfl⟩
  | completed _ _ => exact ⟨_, rfl⟩
  | advanced _ _ => exact ⟨_, List.append_assoc _ _ _⟩
  | terminalized _ _ => exact ⟨_, List.append_assoc _ _ _⟩
  | stepFailed _ _ _ => exact ⟨_, List.append_assoc _ _ _⟩
  | stepFailedLate _ _ _ => exact ⟨_, rfl⟩
  | failedOnly _ _ _ => exact ⟨_, rfl⟩
  | @cancelled _ k _ _ _ => cases k <;> exact ⟨_, rfl⟩
  | askedPaused _ _ _ => exact ⟨_, rfl⟩
  | paused _ => exact ⟨_, rfl⟩
  | rejected _ _ _ => exact ⟨_, rfl⟩
  | resumed _ => exact ⟨_, rfl⟩
  | _ => exact ⟨[], (List.append_nil _).symm⟩

/-! ## The returns that leave a running row -/

/-- The returns of the driver that have made no write in a running process. -/
def Exit.unwritten : Exit → Bool
  | .createDeadline | .createAborted | .resultAborted | .gateAborted => true
  | _ => false

/-- A pump is about to settle in a running process after a return without a write, or after an
    exception, or the row was put back to `running` since it last looked. -/
def Strands (s : Sys) (a : Action) : Prop :=
  a = .settle ∧ s.w.stopped = false ∧ (s.w.restarted = true ∨
    ∃ r fl, s.pump = some (.run (.ret (r, fl))) ∧ ∀ why, r = .ok why → why.unwritten = true)

/-- A pump that settles with a write behind it leaves no running row. -/
theorem settle_not_running {s : Sys} {r : Except CallError Exit × Flags}
    (hp : s.pump = some (.run (.ret r))) (hpost : PumpPost r s.w) (hns : s.w.stopped = false)
    (hok : ¬ Strands s .settle) : s.w.db.wf.status ≠ .running := by
  obtain ⟨r, fl⟩ := r
  have hres : s.w.restarted = false := by
    by_contra hr
    exact hok ⟨rfl, hns, Or.inl (by simpa using hr)⟩
  have hor : ∀ {p : Prop}, p ∨ s.w.restarted = true → p := by
    intro p h
    rw [hres] at h
    exact h.resolve_right Bool.false_ne_true
  cases r with
  | error e => exact absurd ⟨rfl, hns, Or.inr ⟨_, fl, hp, nofun⟩⟩ hok
  | ok why =>
    have hstrand : why.unwritten = true → s.w.db.wf.status ≠ .running := by
      intro hu
      refine absurd ⟨rfl, hns, Or.inr ⟨_, fl, hp, ?_⟩⟩ hok
      intro why' heq
      cases heq
      exact hu
    have hpost : ExitOk why s.w := hpost
    cases why with
    | shutdown =>
      have hst : s.w.stopped = true := hpost
      rw [hns] at hst
      exact nomatch hst
    | notRunning => exact hor hpost
    | stepEnded => exact hor hpost
    | ended => exact hor hpost
    | limit => exact not_running_of_terminal hpost
    | cancelled => exact not_running_of_terminal hpost
    | createDeadline => exact hstrand rfl
    | createAborted => exact hstrand rfl
    | resultAborted => exact hstrand rfl
    | gateAborted => exact hstrand rfl

end VibeRuntime
