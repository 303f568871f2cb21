import Mathlib.Data.List.Basic
import Mathlib.Logic.Relation

/-! # Runs of a system given by a partial step function

`step s e` is the state after event `e`, or `none` where `e` cannot happen in `s`. `run` follows a
list of events; `Along Q s es` says that every step of the run from `s` over `es` satisfies `Q`
(state before, event, state after). One step lemma gives an invariant of every run
(`run_invariant`) and a property of every step of every run (`along_of_invariant`), in both cases
for the runs whose steps meet a side condition.
-/

namespace Ltm.Runs
set_option autoImplicit false
set_option maxHeartbeats 250000

variable {S E : Type*} {step : S → E → Option S}

/-- The state reached from `s` by the events `es`, if all of them can happen. -/
def run (step : S → E → Option S) : S → List E → Option S
  | s, [] => some s
  | s, e :: es => (step s e).bind fun s' => run step s' es

/-- Every step taken by the run from `s` over `es` satisfies `Q`. -/
def Along (step : S → E → Option S) (Q : S → E → S → Prop) : S → List E → Prop
  | _, [] => True
  | s, e :: es => match step s e with
    | none => True
    | some s' => Q s e s' ∧ Along step Q s' es

instance Along.decidable (step : S → E → Option S) (Q : S → E → S → Prop)
    [∀ s e s', Decidable (Q s e s')] : ∀ s es, Decidable (Along step Q s es)
  | _, [] => .isTrue trivial
  | s, e :: es => by
      unfold Along
      exact match step s e with
        | none => .isTrue trivial
        | some s' => @instDecidableAnd _ _ _ (Along.decidable step Q s' es)

theorem run_cons (s : S) (e : E) (es : List E) :
    run step s (e :: es) = (step s e).bind fun s' => run step s' es := rfl

theorem run_cons_eq_some {s t : S} {e : E} {es : List E} (h : run step s (e :: es) = some t) :
    ∃ s', step s e = some s' ∧ run step s' es = some t :=
  Option.bind_eq_some_iff.mp h

theorem run_append (s : S) (es fs : List E) :
    run step s (es ++ fs) = (run step s es).bind fun s' => run step s' fs := by
  induction es generalizing s with
  | nil => rfl
  | cons e es ih =>
      rw [List.cons_append, run_cons, run_cons]
      cases step s e with
      | none => rfl
      | some s' => exact ih s'

variable {Q : S → E → S → Prop}

theorem Along.cons_of_some {s s' : S} {e : E} {es : List E} (h : step s e = some s') :
    Along step Q s (e :: es) ↔ Q s e s' ∧ Along step Q s' es := by
  rw [Along, h]

theorem Along.append {s t : S} {es fs : List E} (hr : run step s es = some t) :
    Along step Q s (es ++ fs) ↔ Along step Q s es ∧ Along step Q t fs := by
  induction es generalizing s with
  | nil =>
      obtain rfl : s = t := Option.some.inj hr
      simp [Along]
  | cons e es ih =>
      obtain ⟨s', hs, hr'⟩ := run_cons_eq_some hr
      rw [List.cons_append, Along.cons_of_some hs, Along.cons_of_some hs, ih hr', and_assoc]

theorem Along.last {s t u : S} {es : List E} {e : E} (h : Along step Q s (es ++ [e]))
    (hr : run step s es = some t) (hs : step t e = some u) : Q t e u :=
  ((Along.cons_of_some hs).1 ((Along.append hr).1 h).2).1

theorem Along.and {R : S → E → S → Prop} {es : List E} {s : S} (h : Along step Q s es)
    (h' : Along step R s es) : Along step (fun s e s' => Q s e s' ∧ R s e s') s es := by
  induction es generalizing s with
  | nil => trivial
  | cons e es ih =>
      cases hs : step s e with
      | none => simp [Along, hs]
      | some s' =>
          obtain ⟨hq, ha⟩ := (Along.cons_of_some hs).1 h
          obtain ⟨hr, ha'⟩ := (Along.cons_of_some hs).1 h'
          exact (Along.cons_of_some hs).2 ⟨⟨hq, hr⟩, ih ha ha'⟩

theorem Along.of_mem {es : List E} (h : ∀ e ∈ es, ∀ s s', step s e = some s' → Q s e s') (s : S) :
    Along step Q s es := by
  induction es generalizing s with
  | nil => trivial
  | cons e es ih =>
      have htail := ih fun f hf => h f (List.mem_cons_of_mem e hf)
      cases hs : step s e with
      | none => simp [Along, hs]
      | some s' => exact (Along.cons_of_some hs).2 ⟨h e List.mem_cons_self s s' hs, htail s'⟩

theorem Along.of_true (h : ∀ s e s', step s e = some s' → Q s e s') (es : List E) (s : S) :
    Along step Q s es := Along.of_mem (fun e _ s s' hs => h s e s' hs) s

variable (Inv : S → Prop) (ok : S → E → S → Prop)

theorem run_invariant (hstep : ∀ s e s', Inv s → ok s e s' → step s e = some s' → Inv s')
    {es : List E} {s t : S} (hi : Inv s) (ha : Along step ok s es)
    (hr : run step s es = some t) : Inv t := by
  induction es generalizing s with
  | nil =>
      obtain rfl : s = t := Option.some.inj hr
      exact hi
  | cons e es ih =>
      obtain ⟨s', hs, hr'⟩ := run_cons_eq_some hr
      obtain ⟨hok, ha'⟩ := (Along.cons_of_some hs).1 ha
      exact ih (hstep s e s' hi hok hs) ha' hr'

theorem along_of_invariant
    (hstep : ∀ s e s', Inv s → ok s e s' → step s e = some s' → Inv s')
    (hQ : ∀ s e s', Inv s → ok s e s' → step s e = some s' → Q s e s')
    {es : List E} {s : S} (hi : Inv s) (ha : Along step ok s es) : Along step Q s es := by
  induction es generalizing s with
  | nil => trivial
  | cons e es ih =>
      cases hs : step s e with
      | none => simp [Along, hs]
      | some s' =>
          obtain ⟨hok, ha'⟩ := (Along.cons_of_some hs).1 ha
          exact (Along.cons_of_some hs).2
            ⟨hQ s e s' hi hok hs, ih (hstep s e s' hi hok hs) ha'⟩

/-- Where an invariant of the allowed steps makes two properties of a step agree, one of them that it
is allowed, they agree on every run whose steps all meet `env`. -/
theorem along_iff_along_of (env : S → E → S → Prop)
    (hstep : ∀ s e s', Inv s → env s e s' → ok s e s' → step s e = some s' → Inv s')
    (hQ : ∀ s e s', Inv s → env s e s' → step s e = some s' → (Q s e s' ↔ ok s e s'))
    (es : List E) {s : S} (hi : Inv s) (he : Along step env s es) :
    Along step Q s es ↔ Along step ok s es := by
  induction es generalizing s with
  | nil => exact Iff.rfl
  | cons e es ih =>
      cases hs : step s e with
      | none => simp [Along, hs]
      | some s' =>
          obtain ⟨henv, he'⟩ := (Along.cons_of_some hs).1 he
          rw [Along.cons_of_some hs, Along.cons_of_some hs, hQ s e s' hi henv hs]
          exact and_congr_right fun hok => ih (hstep s e s' hi henv hok hs) he'

theorem along_iff_along
    (hstep : ∀ s e s', Inv s → ok s e s' → step s e = some s' → Inv s')
    (hQ : ∀ s e s', Inv s → step s e = some s' → (Q s e s' ↔ ok s e s'))
    (es : List E) {s : S} (hi : Inv s) : Along step Q s es ↔ Along step ok s es :=
  along_iff_along_of Inv ok (fun _ _ _ => True) (fun s e s' hi _ => hstep s e s' hi)
    (fun s e s' hi _ => hQ s e s' hi) es hi (Along.of_true (fun _ _ _ _ => trivial) es s)

/-- Where each step is a run of `r` between the images of its states, so is a whole run. -/
theorem run_simulates {T : Type*} {r : T → T → Prop} (f : S → T)
    (hstep : ∀ s e s', Inv s → step s e = some s' →
      Inv s' ∧ Relation.ReflTransGen r (f s) (f s'))
    {es : List E} {s t : S} (hi : Inv s) (hr : run step s es = some t) :
    Inv t ∧ Relation.ReflTransGen r (f s) (f t) := by
  induction es generalizing s with
  | nil =>
      obtain rfl : s = t := Option.some.inj hr
      exact ⟨hi, .refl⟩
  | cons e es ih =>
      obtain ⟨s', hs, hr'⟩ := run_cons_eq_some hr
      obtain ⟨hi', hreach⟩ := hstep s e s' hi hs
      obtain ⟨hit, hreach'⟩ := ih hi' hr'
      exact ⟨hit, hreach.trans hreach'⟩

/-! ## Runs of a system that does more -/

variable {F : Type*} {step' : S → F → Option S} {f : F → E} {allowed : S → F → S → Prop}

/-- A run whose steps are all allowed is one of the other system, which takes the events as `f` has
them. -/
theorem run_map (hmap : ∀ s x s', allowed s x s' → step' s x = some s' → step s (f x) = some s')
    {xs : List F} {s t : S} (ha : Along step' allowed s xs) (hr : run step' s xs = some t) :
    run step s (xs.map f) = some t := by
  induction xs generalizing s with
  | nil => exact hr
  | cons x xs ih =>
      obtain ⟨s', hs, hr'⟩ := run_cons_eq_some hr
      obtain ⟨hok, ha'⟩ := (Along.cons_of_some hs).1 ha
      rw [List.map_cons, run_cons, hmap s x s' hok hs]
      exact ih ha' hr'

/-! ## Runs with a record -/

variable {R : Type*}

/-- The steps of the system with a record beside the state, on which none of them depends. -/
def recording (step : S → E → Option S) (note : S → E → S → R → R) (p : S × R) (e : E) :
    Option (S × R) :=
  (step p.1 e).map fun s' => (s', note p.1 e s' p.2)

variable {note : S → E → S → R → R}

theorem recording_eq_some {p q : S × R} {e : E} (h : recording step note p e = some q) :
    step p.1 e = some q.1 ∧ q.2 = note p.1 e q.1 p.2 := by
  obtain ⟨s', hs, rfl⟩ := Option.map_eq_some_iff.mp h
  exact ⟨hs, rfl⟩

/-- Every run can be recorded. -/
theorem exists_run_recording {s t : S} {es : List E} (hr : run step s es = some t) (r : R) :
    ∃ r', run (recording step note) (s, r) es = some (t, r') := by
  induction es generalizing s r with
  | nil =>
      obtain rfl : s = t := Option.some.inj hr
      exact ⟨r, rfl⟩
  | cons e es ih =>
      obtain ⟨s', hs, hr'⟩ := run_cons_eq_some hr
      obtain ⟨r', hfin⟩ := ih hr' (note s e s' r)
      refine ⟨r', ?_⟩
      rw [run_cons, recording, hs]
      exact hfin

theorem along_recording {p : S × R} {es : List E} :
    Along (recording step note) (fun p e p' => Q p.1 e p'.1) p es ↔ Along step Q p.1 es := by
  induction es generalizing p with
  | nil => exact Iff.rfl
  | cons e es ih =>
      cases hs : step p.1 e with
      | none => simp [Along, recording, hs]
      | some s' =>
          have hr : recording step note p e = some (s', note p.1 e s' p.2) := by rw [recording, hs]; rfl
          rw [Along.cons_of_some hs, Along.cons_of_some hr, ih]

end Ltm.Runs
