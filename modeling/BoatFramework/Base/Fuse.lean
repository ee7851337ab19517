/-
Programs over a state in which one chosen operation fails.  A fuse counts the
operations down; the one that finds it at zero fails, and no later one does.
The judgement `Runs` says what a program does when it is spared and what state a
fault leaves, and composes along sequencing.
-/
import Mathlib.Order.Basic

namespace Fuse

/-- A state and the number of operations before the one that fails; `none`
where none is left to fail. -/
structure Fused (σ : Type) where
  state : σ
  fuse : Option Nat

abbrev FuseM (ε σ : Type) := EStateM ε (Fused σ)

variable {ε δ σ α β : Type}

/-- An operation that may be the one that fails. -/
def tick (fault : ε) : FuseM ε σ Unit :=
  fun s =>
    match s.fuse with
    | none => .ok () s
    | some 0 => .error fault ⟨s.state, none⟩
    | some (k + 1) => .ok () ⟨s.state, some k⟩

/-- Look at the state. -/
def inspect (look : σ → Except ε α) : FuseM ε σ α :=
  fun s =>
    match look s.state with
    | .ok a => .ok a s
    | .error e => .error e s

/-- Change the state. -/
def update (change : σ → σ) : FuseM ε σ Unit :=
  fun s => .ok () ⟨change s.state, s.fuse⟩

/-- Leave with an error under a condition. -/
def failIf (p : Prop) [Decidable p] (e : ε) : FuseM ε σ Unit :=
  if p then throw e else pure ()

/-- Run a program and hand on the errors that are caught. -/
def attempt (catches : ε → Option δ) (c : FuseM ε σ α) :
    FuseM ε σ (Except δ α) :=
  fun s =>
    match c s with
    | .ok a s' => .ok (.ok a) s'
    | .error e s' =>
        match catches e with
        | some d => .ok (.error d) s'
        | none => .error e s'

/-- The fuse outlasts a number of operations. -/
def Spares (fuse : Option Nat) (ops : Nat) : Prop :=
  ∀ k ∈ fuse, ops ≤ k

/-- The fuse after a number of operations. -/
def spend (fuse : Option Nat) (ops : Nat) : Option Nat :=
  fuse.map (· - ops)

@[simp] theorem spares_none (ops : Nat) : Spares none ops := by
  simp [Spares]

@[simp] theorem spend_none (ops : Nat) : spend none ops = none := rfl

@[simp] theorem spend_zero (fuse : Option Nat) : spend fuse 0 = fuse := by
  cases fuse <;> rfl

@[simp] theorem spares_zero (fuse : Option Nat) : Spares fuse 0 :=
  fun k _ => Nat.zero_le k

theorem spares_some {k ops : Nat} : Spares (some k) ops ↔ ops ≤ k := by
  simp [Spares]

theorem spares_add {fuse : Option Nat} {a b : Nat} :
    Spares fuse (a + b) ↔ Spares fuse a ∧ Spares (spend fuse a) b := by
  cases fuse with
  | none => simp
  | some k =>
      simp only [spares_some, spend, Option.map_some]
      omega

theorem spend_add (fuse : Option Nat) (a b : Nat) :
    spend (spend fuse a) b = spend fuse (a + b) := by
  cases fuse with
  | none => rfl
  | some k => simp [spend, Nat.sub_sub]

theorem eq_some_of_spend {fuse : Option Nat} {a k : Nat}
    (hspares : Spares fuse a) (hspend : spend fuse a = some k) :
    fuse = some (a + k) := by
  cases fuse with
  | none => cases hspend
  | some j =>
      rw [spares_some] at hspares
      obtain rfl := Option.some.inj hspend
      rw [Nat.add_sub_cancel' hspares]

/-- How a program ends, as the result of a run. -/
def result (r : Except ε α) (s : Fused σ) : EStateM.Result ε (Fused σ) α :=
  match r with
  | .ok a => .ok a s
  | .error e => .error e s

/-- A program of `ops` operations that ends with `r` in the state `s'` under
every fuse that outlasts it. -/
def Spared (c : FuseM ε σ α) (s : σ) (ops : Nat) (r : Except ε α) (s' : σ) :
    Prop :=
  ∀ fuse, Spares fuse ops → c ⟨s, fuse⟩ = result r ⟨s', spend fuse ops⟩

/-- A fault among the first `ops` operations ends a program with an error of the
kind `Fault` and a state in `P`. -/
def Burnt (Fault : ε → Prop) (P : σ → Prop) (c : FuseM ε σ α) (s : σ)
    (ops : Nat) : Prop :=
  ∀ k < ops, ∃ e t, Fault e ∧ P t ∧ c ⟨s, some k⟩ = .error e ⟨t, none⟩

/-- A program that is spared or ends with an error. -/
structure Runs (Fault : ε → Prop) (P : σ → Prop) (c : FuseM ε σ α) (s : σ)
    (ops : Nat) (r : Except ε α) (s' : σ) : Prop where
  spared : Spared c s ops r s'
  burnt : Burnt Fault P c s ops

section Rules

variable {Fault : ε → Prop} {P Q : σ → Prop} {c : FuseM ε σ α}
  {f : α → FuseM ε σ β} {s s' t : σ} {a b : Nat} {v : α} {e : ε}
  {catches : ε → Option δ}

theorem run_bind_ok {s s' : Fused σ} (hrun : c s = .ok v s') :
    (c >>= f) s = f v s' := by
  change EStateM.bind c f s = _
  rw [EStateM.bind, hrun]

theorem run_bind_error {s s' : Fused σ} (hrun : c s = .error e s') :
    (c >>= f) s = .error e s' := by
  change EStateM.bind c f s = _
  rw [EStateM.bind, hrun]

/-- A caught error is handed on, whether it is a fault or not. -/
theorem attempt_error {d : δ} {s s' : Fused σ} (hrun : c s = .error e s')
    (hcatch : catches e = some d) :
    attempt catches c s = .ok (.error d) s' := by
  rw [attempt, hrun]
  simp only [hcatch]

theorem attempt_ok {s s' : Fused σ} (hrun : c s = .ok v s') :
    attempt catches c s = .ok (.ok v) s' := by
  rw [attempt, hrun]

theorem failIf_eq_ok {p : Prop} [Decidable p] {u : Unit} {s s' : Fused σ}
    (hrun : failIf p e s = .ok u s') : ¬p ∧ s' = s := by
  by_cases hp : p
  · rw [failIf, if_pos hp] at hrun
    cases hrun
  · rw [failIf, if_neg hp] at hrun
    cases hrun
    exact ⟨hp, rfl⟩

theorem Spared.pure : Spared (pure v : FuseM ε σ α) s 0 (.ok v) s := by
  intro fuse _
  rw [spend_zero]
  rfl

theorem Spared.throw : Spared (throw e : FuseM ε σ α) s 0 (.error e) s := by
  intro fuse _
  rw [spend_zero]
  rfl

theorem Spared.bind {r : Except ε β} (hfirst : Spared c s a (.ok v) s')
    (hnext : Spared (f v) s' b r t) : Spared (c >>= f) s (a + b) r t := by
  intro fuse hfuse
  obtain ⟨ha, hb⟩ := spares_add.mp hfuse
  have hrest := hnext _ hb
  rw [spend_add] at hrest
  rw [run_bind_ok (hfirst fuse ha), hrest]

/-- A program that ends with an error ends a sequence. -/
theorem Spared.bind_error (hfirst : Spared c s a (.error e) s') :
    Spared (c >>= f) s a (.error e) s' := by
  intro fuse hfuse
  rw [run_bind_error (hfirst fuse hfuse)]
  rfl

theorem Spared.pass {f : Unit → FuseM ε σ β} {r : Except ε β} {p : Prop}
    [Decidable p] (hp : ¬p) (hnext : Spared (f ()) s a r t) :
    Spared (failIf p e >>= f) s a r t := by
  rw [failIf, if_neg hp, ← Nat.zero_add a]
  exact Spared.pure.bind hnext

theorem Spared.map {w : β} (hfirst : Spared c s a (.ok v) s')
    (hlast : f v = Pure.pure w) : Spared (c >>= f) s a (.ok w) s' := by
  rw [← Nat.add_zero a]
  refine hfirst.bind ?_
  rw [hlast]
  exact Spared.pure

theorem Spared.cast {r : Except ε α} (hruns : Spared c s a r s')
    (heq : a = b) : Spared c s b r s' :=
  heq ▸ hruns

theorem Spared.attempt_ok (hruns : Spared c s a (.ok v) s') :
    Spared (attempt catches c) s a (.ok (.ok v)) s' := by
  intro fuse hfuse
  exact Fuse.attempt_ok (hruns fuse hfuse)

theorem Spared.attempt_error {d : δ} (hruns : Spared c s a (.error e) s')
    (hcatch : catches e = some d) :
    Spared (attempt catches c) s a (.ok (.error d)) s' := by
  intro fuse hfuse
  exact Fuse.attempt_error (hruns fuse hfuse) hcatch

/-- Without a fuse a program does what it does when spared. -/
theorem Spared.run {r : Except ε α} (hruns : Spared c s a r s') :
    c ⟨s, none⟩ = result r ⟨s', none⟩ :=
  hruns none (spares_none a)

theorem Runs.pure : Runs Fault P (pure v : FuseM ε σ α) s 0 (.ok v) s where
  spared := Spared.pure
  burnt k hk := absurd hk (Nat.not_lt_zero k)

theorem Burnt.bind_left (hfirst : Burnt Fault P c s a) :
    Burnt Fault P (c >>= f) s a := by
  intro k hk
  obtain ⟨e, t, he, ht, hrun⟩ := hfirst k hk
  exact ⟨e, t, he, ht, run_bind_error hrun⟩

theorem Burnt.bind (hfirst : Runs Fault P c s a (.ok v) s')
    (hnext : Burnt Fault P (f v) s' b) : Burnt Fault P (c >>= f) s (a + b) := by
  intro k hk
  rcases Nat.lt_or_ge k a with hlt | hge
  · exact Burnt.bind_left hfirst.burnt k hlt
  · obtain ⟨e, t, he, ht, hrun⟩ := hnext (k - a) (by omega)
    have hfirstRun := hfirst.spared (some k) (spares_some.mpr hge)
    exact ⟨e, t, he, ht, (run_bind_ok hfirstRun).trans hrun⟩

theorem Burnt.mono (hburnt : Burnt Fault P c s a) (hPQ : ∀ t, P t → Q t) :
    Burnt Fault Q c s a := by
  intro k hk
  obtain ⟨e, t, he, ht, hrun⟩ := hburnt k hk
  exact ⟨e, t, he, hPQ t ht, hrun⟩

theorem Burnt.cast (hburnt : Burnt Fault P c s a) (heq : a = b) :
    Burnt Fault P c s b :=
  heq ▸ hburnt

theorem Runs.bind {r : Except ε β} (hfirst : Runs Fault P c s a (.ok v) s')
    (hnext : Runs Fault P (f v) s' b r t) :
    Runs Fault P (c >>= f) s (a + b) r t where
  spared := hfirst.spared.bind hnext.spared
  burnt := Burnt.bind hfirst hnext.burnt

theorem Runs.bind_error (hfirst : Runs Fault P c s a (.error e) s') :
    Runs Fault P (c >>= f) s a (.error e) s' where
  spared := hfirst.spared.bind_error
  burnt := hfirst.burnt.bind_left

theorem Runs.mono {r : Except ε α} (hruns : Runs Fault P c s a r s')
    (hPQ : ∀ t, P t → Q t) : Runs Fault Q c s a r s' where
  spared := hruns.spared
  burnt := hruns.burnt.mono hPQ

/-- An operation whose fault leaves the state as it was. -/
theorem Runs.tick {fault : ε} (hfault : Fault fault) (hP : P s) :
    Runs Fault P (tick fault) s 1 (.ok ()) s where
  spared fuse hfuse := by
    match fuse with
    | none => rfl
    | some 0 => exact absurd (spares_some.mp hfuse) (by omega)
    | some (k + 1) => rfl
  burnt k hk := by
    obtain rfl : k = 0 := by omega
    exact ⟨fault, s, hfault, hP, rfl⟩

theorem Runs.inspect {look : σ → Except ε α} {r : Except ε α}
    (hlook : look s = r) : Runs Fault P (inspect look) s 0 r s where
  spared fuse _ := by
    subst hlook
    rw [spend_zero]
    unfold Fuse.inspect result
    cases look s <;> rfl
  burnt k hk := absurd hk (Nat.not_lt_zero k)

theorem Runs.update {change : σ → σ} :
    Runs Fault P (update change) s 0 (.ok ()) (change s) where
  spared fuse _ := by
    rw [spend_zero]
    rfl
  burnt k hk := absurd hk (Nat.not_lt_zero k)

theorem Runs.throw : Runs Fault P (throw e : FuseM ε σ α) s 0 (.error e) s where
  spared := Spared.throw
  burnt k hk := absurd hk (Nat.not_lt_zero k)

/-- A condition under which a program leaves, where it does not hold. -/
theorem Runs.pass {f : Unit → FuseM ε σ β} {r : Except ε β} {p : Prop}
    [Decidable p] (hp : ¬p) (hnext : Runs Fault P (f ()) s a r t) :
    Runs Fault P (failIf p e >>= f) s a r t := by
  rw [failIf, if_neg hp, ← Nat.zero_add a]
  exact Runs.pure.bind hnext

theorem Spared.stop {f : Unit → FuseM ε σ β} {p : Prop} [Decidable p]
    (hp : p) : Spared (failIf p e >>= f) s 0 (.error e) s := by
  rw [failIf, if_pos hp]
  exact Spared.throw.bind_error

theorem Burnt.pass {f : Unit → FuseM ε σ β} {p : Prop} [Decidable p]
    (hp : ¬p) (hnext : Burnt Fault P (f ()) s a) :
    Burnt Fault P (failIf p e >>= f) s a := by
  rw [failIf, if_neg hp, ← Nat.zero_add a]
  exact Burnt.bind Runs.pure hnext

theorem Runs.stop {f : Unit → FuseM ε σ β} {p : Prop} [Decidable p]
    (hp : p) : Runs Fault P (failIf p e >>= f) s 0 (.error e) s := by
  rw [failIf, if_pos hp]
  exact Runs.throw.bind_error

/-- A sequence whose second part does nothing but give a value. -/
theorem Runs.map {w : β} (hfirst : Runs Fault P c s a (.ok v) s')
    (hlast : f v = Pure.pure w) :
    Runs Fault P (c >>= f) s a (.ok w) s' := by
  rw [← Nat.add_zero a]
  refine hfirst.bind ?_
  rw [hlast]
  exact Runs.pure

/-- The number of operations, written another way. -/
theorem Runs.cast {r : Except ε α} (hruns : Runs Fault P c s a r s')
    (heq : a = b) : Runs Fault P c s b r s' :=
  heq ▸ hruns

/-- A program whose faults are caught and undone: what it leaves behind is in
`P`, and from there the handler ends with a fault in `Q`. -/
theorem Runs.recover {f : Except δ α → FuseM ε σ β} {r : Except ε β}
    (hfirst : Runs Fault P c s a (.ok v) s')
    (hnext : Runs Fault Q (f (.ok v)) s' b r t)
    (hundo : ∀ e t, Fault e → P t → ∃ d, catches e = some d ∧
      ∃ e' t', Fault e' ∧ Q t' ∧
        f (.error d) ⟨t, none⟩ = .error e' ⟨t', none⟩) :
    Runs Fault Q (attempt catches c >>= f) s (a + b) r t where
  spared := hfirst.spared.attempt_ok.bind hnext.spared
  burnt k hk := by
    rcases Nat.lt_or_ge k a with hlt | hge
    · obtain ⟨e, t, he, ht, hrun⟩ := hfirst.burnt k hlt
      obtain ⟨d, hcatch, e', t', he', ht', hhandle⟩ := hundo e t he ht
      exact ⟨e', t', he', ht',
        (run_bind_ok (attempt_error hrun hcatch)).trans hhandle⟩
    · obtain ⟨e, t, he, ht, hrun⟩ := hnext.burnt (k - a) (by omega)
      have hfirstRun := hfirst.spared (some k) (spares_some.mpr hge)
      exact ⟨e, t, he, ht,
        (run_bind_ok (attempt_ok hfirstRun)).trans hrun⟩

end Rules

/-- Without an operation no fuse matters. -/
theorem Spared.run_free {c : FuseM ε σ α} {s s' : σ} {r : Except ε α}
    (hruns : Spared c s 0 r s') (fuse : Option Nat) :
    c ⟨s, fuse⟩ = result r ⟨s', fuse⟩ := by
  have hrun := hruns fuse (spares_zero fuse)
  rwa [spend_zero] at hrun

/-- A run ends as `Q` says, with a value or an error. -/
def Ends (c : FuseM ε σ α) (s : Fused σ) (Q : Except ε α → Fused σ → Prop) :
    Prop :=
  ∃ r s', c s = result r s' ∧ Q r s'

section Ends

variable {c : FuseM ε σ α} {f : α → FuseM ε σ β} {s s' : Fused σ}
  {Q R : Except ε α → Fused σ → Prop} {S : Except ε β → Fused σ → Prop}
  {v : α} {e : ε}

theorem Ends.pure (hlast : Q (.ok v) s) : Ends (pure v) s Q :=
  ⟨.ok v, s, rfl, hlast⟩

theorem Ends.throw (hlast : Q (.error e) s) : Ends (throw e) s Q :=
  ⟨.error e, s, rfl, hlast⟩

theorem Ends.of_ok (hrun : c s = .ok v s') (hlast : Q (.ok v) s') :
    Ends c s Q :=
  ⟨.ok v, s', hrun, hlast⟩

theorem Ends.of_error (hrun : c s = .error e s') (hlast : Q (.error e) s') :
    Ends c s Q :=
  ⟨.error e, s', hrun, hlast⟩

theorem Ends.bind (hfirst : Ends c s Q)
    (hok : ∀ v s', Q (.ok v) s' → Ends (f v) s' S)
    (herror : ∀ e s', Q (.error e) s' → S (.error e) s') :
    Ends (c >>= f) s S := by
  obtain ⟨r, s', hrun, hlast⟩ := hfirst
  cases r with
  | ok v =>
      obtain ⟨r', t, hnext, hend⟩ := hok v s' hlast
      exact ⟨r', t, (run_bind_ok hrun).trans hnext, hend⟩
  | error e => exact ⟨.error e, s', run_bind_error hrun, herror e s' hlast⟩

theorem Ends.mono (hends : Ends c s Q) (hQR : ∀ r s', Q r s' → R r s') :
    Ends c s R := by
  obtain ⟨r, s', hrun, hlast⟩ := hends
  exact ⟨r, s', hrun, hQR r s' hlast⟩

/-- Two descriptions of one run. -/
theorem Ends.and (hends : Ends c s Q) (hother : Ends c s R) :
    Ends c s fun r s' => Q r s' ∧ R r s' := by
  obtain ⟨r, s', hrun, hlast⟩ := hends
  obtain ⟨r', t, hrun', hlast'⟩ := hother
  rw [hrun] at hrun'
  refine ⟨r, s', hrun, hlast, ?_⟩
  cases r <;> cases r' <;> cases hrun' <;> exact hlast'

theorem Ends.ok (hends : Ends c s Q) (hrun : c s = .ok v s') : Q (.ok v) s' := by
  obtain ⟨r, t, hend, hlast⟩ := hends
  rw [hrun] at hend
  cases r <;> cases hend
  exact hlast

theorem Ends.error (hends : Ends c s Q) (hrun : c s = .error e s') :
    Q (.error e) s' := by
  obtain ⟨r, t, hend, hlast⟩ := hends
  rw [hrun] at hend
  cases r <;> cases hend
  exact hlast

theorem Ends.result_eq {r : Except ε α} (hends : Ends c s Q)
    (hrun : c s = result r s') : Q r s' := by
  cases r with
  | ok v => exact hends.ok hrun
  | error e => exact hends.error hrun

/-- A program that hands on its errors. -/
theorem Ends.attempt {catches : ε → Option δ}
    {T : Except ε (Except δ α) → Fused σ → Prop} (hends : Ends c s Q)
    (hok : ∀ v s', Q (.ok v) s' → T (.ok (.ok v)) s')
    (hcaught : ∀ e d s', Q (.error e) s' → catches e = some d →
      T (.ok (.error d)) s')
    (herror : ∀ e s', Q (.error e) s' → catches e = none → T (.error e) s') :
    Ends (attempt catches c) s T := by
  obtain ⟨r, s', hrun, hlast⟩ := hends
  cases r with
  | ok v => exact ⟨.ok (.ok v), s', attempt_ok hrun, hok v s' hlast⟩
  | error e =>
      cases hcatch : catches e with
      | some d =>
          exact ⟨.ok (.error d), s', attempt_error hrun hcatch,
            hcaught e d s' hlast hcatch⟩
      | none =>
          refine ⟨.error e, s', ?_, herror e s' hlast hcatch⟩
          rw [Fuse.attempt, hrun]
          change (match catches e with
            | some d => _
            | none => _) = _
          rw [hcatch]
          rfl

end Ends

/-- What a program does under a fuse: it is spared or ends with an error. -/
theorem Runs.ends {Fault : ε → Prop} {P : σ → Prop} {c : FuseM ε σ α}
    {s s' : σ} {ops : Nat} {r : Except ε α}
    (hruns : Runs Fault P c s ops r s') (fuse : Option Nat) :
    Ends c ⟨s, fuse⟩ fun r' t =>
      (Spares fuse ops ∧ r' = r ∧ t = ⟨s', spend fuse ops⟩) ∨
        (¬Spares fuse ops ∧ ∃ e t', Fault e ∧ P t' ∧ r' = .error e ∧
          t = ⟨t', none⟩) := by
  by_cases hspares : Spares fuse ops
  · exact ⟨r, _, hruns.spared fuse hspares, Or.inl ⟨hspares, rfl, rfl⟩⟩
  · cases fuse with
    | none => exact absurd (spares_none ops) hspares
    | some k =>
        have hk : k < ops := by
          rw [spares_some] at hspares
          omega
        obtain ⟨e, t, he, ht, hrun⟩ := hruns.burnt k hk
        exact ⟨.error e, ⟨t, none⟩, hrun, Or.inr ⟨hspares, e, t, he, ht, rfl,
          rfl⟩⟩

/-- A step and what comes behind it, under a fuse that hits the step or what
comes behind it. -/
theorem Runs.bind_ends {Fault : ε → Prop} {P : σ → Prop} {c : FuseM ε σ α}
    {f : α → FuseM ε σ β} {s s' : σ} {ops : Nat} {v : α} {fuse : Option Nat}
    {Q : Except ε β → Fused σ → Prop} (hfirst : Runs Fault P c s ops (.ok v) s')
    (hburnt : ∀ k e t, fuse = some k → k < ops → Fault e → P t →
      Q (.error e) ⟨t, none⟩)
    (hnext : Spares fuse ops → Ends (f v) ⟨s', spend fuse ops⟩ Q) :
    Ends (c >>= f) ⟨s, fuse⟩ Q := by
  by_cases hspares : Spares fuse ops
  · obtain ⟨r, t, hrun, hlast⟩ := hnext hspares
    exact ⟨r, t, (run_bind_ok (hfirst.spared fuse hspares)).trans hrun, hlast⟩
  · cases fuse with
    | none => exact absurd (spares_none ops) hspares
    | some k =>
        have hk : k < ops := by
          rw [spares_some] at hspares
          omega
        obtain ⟨e, t, he, ht, hrun⟩ := hfirst.burnt k hk
        exact ⟨.error e, _, run_bind_error hrun, hburnt k e t rfl hk he ht⟩

/-- What one sees of the state is the same after a program as before it, however
it ends. -/
def Preserves {γ : Type} (view : σ → γ) (c : FuseM ε σ α) : Prop :=
  ∀ s, Ends c s fun _ t => view t.state = view s.state

section Preserves

variable {γ : Type} {view : σ → γ} {c c' : FuseM ε σ α} {f : α → FuseM ε σ β}
  {v : α} {e : ε} {p : Prop} [Decidable p]

theorem Preserves.pure : Preserves view (pure v : FuseM ε σ α) :=
  fun _ => Ends.pure rfl

theorem Preserves.throw : Preserves view (throw e : FuseM ε σ α) :=
  fun _ => Ends.throw rfl

theorem Preserves.bind (hfirst : Preserves view c)
    (hnext : ∀ v, Preserves view (f v)) : Preserves view (c >>= f) := by
  intro s
  refine (hfirst s).bind ?_ ?_
  · intro v t hview
    exact (hnext v t).mono fun _ _ hlast => hlast.trans hview
  · intro _ _ hview
    exact hview

theorem Preserves.ite (htrue : p → Preserves view c)
    (hfalse : ¬p → Preserves view c') :
    Preserves view (if p then c else c') := by
  by_cases hp : p
  · rw [if_pos hp]
    exact htrue hp
  · rw [if_neg hp]
    exact hfalse hp

theorem Preserves.failIf : Preserves view (failIf p e : FuseM ε σ Unit) :=
  Preserves.ite (fun _ => Preserves.throw) fun _ => Preserves.pure

theorem Preserves.tick : Preserves view (tick e : FuseM ε σ Unit) := by
  intro s
  match s with
  | ⟨s, none⟩ => exact Ends.of_ok rfl rfl
  | ⟨s, some 0⟩ => exact Ends.of_error rfl rfl
  | ⟨s, some (k + 1)⟩ => exact Ends.of_ok rfl rfl

theorem Preserves.inspect {look : σ → Except ε α} :
    Preserves view (inspect look) := by
  intro s
  refine ⟨look s.state, s, ?_, rfl⟩
  rw [Fuse.inspect]
  cases look s.state <;> rfl

theorem Preserves.update {change : σ → σ}
    (hchange : ∀ s, view (change s) = view s) :
    Preserves view (update change : FuseM ε σ Unit) :=
  fun s => Ends.of_ok rfl (hchange s.state)

theorem Preserves.attempt {catches : ε → Option δ} (hview : Preserves view c) :
    Preserves view (attempt catches c) :=
  fun s => (hview s).attempt (fun _ _ hlast => hlast)
    (fun _ _ _ hlast _ => hlast) fun _ _ hlast _ => hlast

end Preserves

/-- Without a fuse a program that succeeds leaves the state, and its value is in
`P`. -/
def Yields (P : α → Prop) (c : FuseM ε σ α) (s : σ) : Prop :=
  ∀ v t, c ⟨s, none⟩ = .ok v t → t = ⟨s, none⟩ ∧ P v

section Yields

variable {P : α → Prop} {Q : β → Prop} {c : FuseM ε σ α} {f : α → FuseM ε σ β}
  {s : σ} {v : α} {e : ε}

theorem Yields.pure (hv : P v) : Yields P (pure v : FuseM ε σ α) s := by
  intro w t hrun
  cases hrun
  exact ⟨rfl, hv⟩

theorem Yields.throw : Yields P (throw e : FuseM ε σ α) s :=
  fun _ _ hrun => by cases hrun

theorem Yields.bind (hfirst : Yields P c s)
    (hnext : ∀ v, P v → Yields Q (f v) s) : Yields Q (c >>= f) s := by
  intro w u hrun
  cases hc : c ⟨s, none⟩ with
  | ok v t =>
      obtain ⟨rfl, hv⟩ := hfirst v t hc
      rw [run_bind_ok hc] at hrun
      exact hnext v hv w u hrun
  | error e t =>
      rw [run_bind_error hc] at hrun
      cases hrun

theorem Yields.pass {f : Unit → FuseM ε σ β} {p : Prop} [Decidable p]
    (hnext : ¬p → Yields Q (f ()) s) : Yields Q (failIf p e >>= f) s := by
  refine Yields.bind (P := fun _ => ¬p) ?_ fun _ hp => hnext hp
  by_cases hp : p
  · rw [failIf, if_pos hp]
    exact Yields.throw
  · rw [failIf, if_neg hp]
    exact Yields.pure hp

theorem Yields.mono {P' : α → Prop} (hyields : Yields P c s)
    (hPP' : ∀ v, P v → P' v) : Yields P' c s := by
  intro v t hrun
  obtain ⟨ht, hv⟩ := hyields v t hrun
  exact ⟨ht, hPP' v hv⟩

theorem Spared.yields {ops : Nat} (hruns : Spared c s ops (.ok v) s) :
    Yields (· = v) c s := by
  intro w t hrun
  rw [hruns.run] at hrun
  cases hrun
  exact ⟨rfl, rfl⟩

theorem Spared.yields_error {ops : Nat} (hruns : Spared c s ops (.error e) s) :
    Yields P c s := by
  intro w t hrun
  rw [hruns.run] at hrun
  cases hrun

end Yields

end Fuse
