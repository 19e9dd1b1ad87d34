import VibeWorkflow.PoolProofs

/-!
# A call that runs alone

What a call does when nothing else runs: its operations take effect one after another, and the environment
answers each of them as it may.  After a crash every call of a process can run so.

* `Pool.Can` — a program can end so, for some answers of the environment;
* `can_pure`, `can_await`, `can_bind`, `can_catch_ok` — one rule a construct;
* **`Pool.retry`** — after a crash, a call can be made again and run to such an end.
-/

namespace AsyncLogic

namespace Pool

variable {S : Sig} {W α β : Type} (P : Pool S W)

/-- The operations of a program take effect one after another, up to its end. -/
inductive Ends : W → Prog S α → α → W → Prop where
  | ret {w : W} {a : α} : Ends w (.ret a) a w
  | call {w w' w'' : W} {op : S.Op} {k : Except S.Err (S.Ans op) → S.Flags → Prog S α} {inp : P.Input}
      {r : Except S.Err (S.Ans op)} {a : α} : P.exec op w inp = some (r, w') → Ends w' (k r (P.flags w')) a w'' →
      Ends w (.call op k) a w''

/-- The program can return or throw so. -/
def Can (m : Js S α) (w : W) (r : Except S.Err α) (w' : W) : Prop := ∀ fl, ∃ fl', P.Ends w (m fl) (r, fl') w'

variable {P} {w w' w'' : W}

theorem Ends.bind {m : Prog S α} {f : α → Prog S β} {a : α} {b : β} (hm : P.Ends w m a w')
    (hf : P.Ends w' (f a) b w'') :
    P.Ends w (m.bind f) b w'' := by
  induction hm with
  | ret => exact hf
  | call hexec _ ih => exact .call hexec (ih hf)

theorem can_pure {a : α} : P.Can (Pure.pure a) w (.ok a) w := fun fl => ⟨fl, .ret⟩

theorem can_await {op : S.Op} {inp : P.Input} {r : Except S.Err (S.Ans op)} (h : P.exec op w inp = some (r, w')) :
    P.Can (Js.await op) w r w' :=
  fun _ => ⟨_, .call h .ret⟩

theorem can_bind {m : Js S α} {f : α → Js S β} {a : α} {r : Except S.Err β} (hm : P.Can m w (.ok a) w')
    (hf : P.Can (f a) w' r w'') : P.Can (m >>= f) w r w'' := by
  intro fl
  obtain ⟨fl', hends⟩ := hm fl
  obtain ⟨fl'', hends'⟩ := hf fl'
  exact ⟨fl'', hends.bind hends'⟩

theorem can_catch_ok {m : Js S α} {handler : S.Err → Js S α} {a : α} (hm : P.Can m w (.ok a) w') :
    P.Can (MonadExcept.tryCatch m handler) w (.ok a) w' := by
  intro fl
  obtain ⟨fl', hends⟩ := hm fl
  exact ⟨fl', hends.bind .ret⟩

/-! ## Runs -/

/-- The steps of the only call. -/
theorem run_ends {c : P.Call} {p : Prog S (Except S.Err P.Res × S.Flags)} {r : Except S.Err P.Res × S.Flags}
    (h : P.Ends w p r w') : ∃ as, runWhile P (fun _ _ => true) ⟨w, [⟨c, p⟩]⟩ as = some ⟨w', [⟨c, .ret r⟩]⟩ := by
  generalize hr : r = r' at h
  induction h with
  | ret =>
    obtain rfl := hr
    exact ⟨[], rfl⟩
  | @call w w' w'' op k inp answer a hexec _ ih =>
    obtain ⟨as, has⟩ := ih hr
    refine ⟨.exec 0 inp :: as, ?_⟩
    have hstep : P.step ⟨w, [⟨c, .call op k⟩]⟩ (.exec 0 inp) =
        some (.exec c op inp, ⟨w', [⟨c, k answer (P.flags w')⟩]⟩) := by
      simp only [step, List.getElem?_cons_zero, hexec, List.set_cons_zero]
    rw [runWhile, hstep]
    exact has

/-- **A call can be made again after a crash**, and run to its end. -/
theorem retry {s : P.State} {c : P.Call} {r : Except S.Err P.Res} (h : P.Can (P.program c) s.w r w') :
    ∃ as fl, runWhile P (fun _ _ => true) s as = some ⟨w', [⟨c, .ret (r, fl)⟩]⟩ := by
  obtain ⟨fl, hends⟩ := h (P.flags s.w)
  obtain ⟨as, has⟩ := run_ends (c := c) hends
  exact ⟨.crash :: .invoke c :: as, fl, has⟩

end Pool

end AsyncLogic
