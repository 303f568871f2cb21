import Ltm.Foundations.Runs
import Ltm.Kernel.Types

/-! # Entering and leaving the kernel: `ltm_get_kernel` and `ltm_exit_kernel`

An application attaches the shared segment at a fixed address when a primitive begins and detaches it
when the primitive ends. What they know of the segment is in variables of the process, and so is
`KERNEL`: there is one of each for all the calls of the process.
-/

namespace Ltm.Ipcs
open Kernel Runs
set_option autoImplicit false
set_option maxHeartbeats 250000

/-- The values of `shm_base_addr`, `shmc` and `KERNEL`. -/
inductive Puntero
  | nulo
  /-- `(void *) -1` -/
  | menosUno
  /-- `SHM_BASE_ADDR` -/
  | base
  /-- `shm_base_addr + INICIO`, where the segment is attached -/
  | datos
  deriving DecidableEq, Repr

structure Proceso where
  shmId1 : Int
  shmBaseAddr : Puntero
  shmc : Puntero
  iniciado : Bool
  /-- `KERNEL`, that is `*p1` -/
  kernel : Puntero
  /-- there is a segment at `SHM_BASE_ADDR` -/
  montado : Bool
  deriving DecidableEq, Repr

/-- What `ltm_get_kernel` is answered. -/
structure Respuestas where
  shmget : Int
  /-- the segment can be attached, where there is none yet -/
  shmat : Bool
  config : Int

/-- The answers to a process that finds the segment. -/
def favorable : Respuestas := ⟨1, true, 0⟩

/-- `shmdt` of an address that is not that of a segment fails. -/
def shmdt (p : Puntero) (montado : Bool) : Bool := if p = .base then false else montado

def ltmExitKernel (s : Proceso) : Proceso :=
  let s := if s.shmBaseAddr = .nulo then s
    else { s with shmBaseAddr := .nulo, montado := shmdt s.shmBaseAddr s.montado }
  { s with kernel := .nulo }

/-- `ltm_get_kernel` from `shmat` on; without `SHM_REMAP` it fails where there is a segment. -/
def engancha (r : Respuestas) (s : Proceso) : Int × Proceso :=
  if s.montado ∨ r.shmat = false then (-1, { s with shmBaseAddr := .menosUno })
  else
    let s := { s with shmBaseAddr := .base, shmc := .base, kernel := .datos, montado := true }
    if s.iniciado then (0, s)
    else if r.config = -1 then (-1, ltmExitKernel s)
    else (0, { s with iniciado := true })

def ltmGetKernel (r : Respuestas) (s : Proceso) : Int × Proceso :=
  let s := { s with kernel := .nulo }
  if s.iniciado then engancha r s
  else
    let s := { s with shmId1 := r.shmget }
    if r.shmget < 0 then (-1, s) else engancha r s

/-! ## The calls of a process -/

structure Aplicacion where
  proceso : Proceso
  /-- the calls that have got the kernel and not left it -/
  enCurso : ℕ
  /-- record: the last result of `ltm_get_kernel` -/
  devuelto : Option Int
  deriving DecidableEq

inductive Suceso
  /-- a primitive begins; without the kernel it returns `EXKERNEL` -/
  | entra (r : Respuestas)
  /-- a primitive ends -/
  | sale

/-- The process after `ltm_get_kernel` has returned. -/
def Aplicacion.trasGet (s : Aplicacion) (r : Int × Proceso) : Aplicacion :=
  ⟨r.2, if r.1 < 0 then s.enCurso else s.enCurso + 1, some r.1⟩

def paso (s : Aplicacion) : Suceso → Option Aplicacion
  | .entra r => some (s.trasGet (ltmGetKernel r s.proceso))
  | .sale =>
    if s.enCurso = 0 then none
    else some { s with proceso := ltmExitKernel s.proceso, enCurso := s.enCurso - 1 }

def inicial : Aplicacion := ⟨⟨-1, .nulo, .nulo, false, .nulo, false⟩, 0, none⟩

/-! ## The three states of a process -/

/-- Outside the kernel. -/
structure Suelto (s : Proceso) : Prop where
  montado : s.montado = false
  base : s.shmBaseAddr ≠ .base
  kernel : s.kernel = .nulo

structure Dentro (s : Proceso) : Prop where
  montado : s.montado = true
  base : s.shmBaseAddr = .base
  kernel : s.kernel = .datos
  iniciado : s.iniciado = true

/-- The segment is attached, and `shm_base_addr` does not know of it. -/
structure Roto (s : Proceso) : Prop where
  montado : s.montado = true
  base : s.shmBaseAddr ≠ .base
  kernel : s.kernel = .nulo
  iniciado : s.iniciado = true

/-- The kernel is there to be entered, and the first time the network too. -/
def Encuentra (r : Respuestas) (s : Proceso) : Prop :=
  r.shmat = true ∧ (s.iniciado = true ∨ 0 ≤ r.shmget ∧ r.config ≠ -1)

instance (r : Respuestas) (s : Proceso) : Decidable (Encuentra r s) :=
  inferInstanceAs (Decidable (_ ∧ (_ ∨ _ ∧ _)))

section Proceso
variable {r : Respuestas} {s : Proceso}

theorem exit_dentro (h : Dentro s) : Suelto (ltmExitKernel s) := by
  have hb : s.shmBaseAddr ≠ .nulo := by simp [h.base]
  unfold ltmExitKernel
  rw [if_neg hb]
  exact ⟨if_pos h.base, by simp, rfl⟩

theorem exit_roto (h : Roto s) : Roto (ltmExitKernel s) := by
  unfold ltmExitKernel
  by_cases hb : s.shmBaseAddr = .nulo
  · rw [if_pos hb]
    exact ⟨h.montado, h.base, rfl, h.iniciado⟩
  · rw [if_neg hb]
    refine ⟨?_, by simp, rfl, h.iniciado⟩
    exact (if_neg h.base).trans h.montado

/-- With a segment at the address there is no second one, and `shm_base_addr` is lost. -/
theorem get_montado (hm : s.montado = true) (hi : s.iniciado = true) :
    (ltmGetKernel r s).1 = -1 ∧ Roto (ltmGetKernel r s).2 := by
  have heq : ltmGetKernel r s = (-1, { s with kernel := .nulo, shmBaseAddr := .menosUno }) := by
    unfold ltmGetKernel engancha
    dsimp only
    rw [if_pos hi, if_pos (Or.inl hm)]
  rw [heq]
  exact ⟨rfl, hm, by simp, rfl, hi⟩

theorem engancha_suelto (h : Suelto s) :
    (r.shmat = true ∧ (s.iniciado = true ∨ r.config ≠ -1) ∧ (engancha r s).1 = 0 ∧
        Dentro (engancha r s).2) ∨
      (¬(r.shmat = true ∧ (s.iniciado = true ∨ r.config ≠ -1)) ∧ (engancha r s).1 = -1 ∧
        Suelto (engancha r s).2) := by
  unfold engancha
  by_cases hat : r.shmat = true
  · have hlibre : ¬(s.montado = true ∨ r.shmat = false) := by simp [h.montado, hat]
    rw [if_neg hlibre]
    dsimp only
    by_cases hi : s.iniciado = true
    · rw [if_pos hi]
      exact Or.inl ⟨hat, Or.inl hi, rfl, rfl, rfl, rfl, hi⟩
    · rw [if_neg hi]
      by_cases hc : r.config = -1
      · rw [if_pos hc]
        refine Or.inr ⟨fun hno => (hno.2.resolve_left hi) hc, rfl, ?_⟩
        exact ⟨rfl, by simp [ltmExitKernel], rfl⟩
      · rw [if_neg hc]
        exact Or.inl ⟨hat, Or.inr hc, rfl, rfl, rfl, rfl, rfl⟩
  · rw [if_pos (Or.inr (by simpa using hat))]
    exact Or.inr ⟨fun hno => hat hno.1, rfl, h.montado, by simp, h.kernel⟩

theorem get_suelto (h : Suelto s) :
    Encuentra r s ∧ (ltmGetKernel r s).1 = 0 ∧ Dentro (ltmGetKernel r s).2 ∨
      ¬Encuentra r s ∧ (ltmGetKernel r s).1 = -1 ∧ Suelto (ltmGetKernel r s).2 := by
  unfold ltmGetKernel Encuentra
  dsimp only
  by_cases hi : s.iniciado = true
  · rw [if_pos hi]
    rcases engancha_suelto (r := r) (s := { s with kernel := .nulo }) ⟨h.montado, h.base, rfl⟩ with
      ⟨hat, -, hfin⟩ | ⟨hno, hfin⟩
    · exact Or.inl ⟨⟨hat, Or.inl hi⟩, hfin⟩
    · exact Or.inr ⟨fun hen => hno ⟨hen.1, Or.inl hi⟩, hfin⟩
  · rw [if_neg hi]
    by_cases hget : r.shmget < 0
    · rw [if_pos hget]
      refine Or.inr ⟨fun hen => ?_, rfl, h.montado, h.base, rfl⟩
      exact absurd (hen.2.resolve_left hi).1 (by omega)
    · rw [if_neg hget]
      rcases engancha_suelto (r := r) (s := { s with kernel := .nulo, shmId1 := r.shmget })
        ⟨h.montado, h.base, rfl⟩ with ⟨hat, hcon, hfin⟩ | ⟨hno, hfin⟩
      · exact Or.inl ⟨⟨hat, Or.inr ⟨by omega, hcon.resolve_left hi⟩⟩, hfin⟩
      · exact Or.inr ⟨fun hen => hno ⟨hen.1, Or.inr (hen.2.resolve_left hi).2⟩, hfin⟩

end Proceso

/-! ## One call at a time, and two -/

/-- `KERNEL` is good exactly while there is a call in course, and there is at most one. -/
def Sano (s : Aplicacion) : Prop :=
  s.enCurso = 0 ∧ Suelto s.proceso ∨ s.enCurso = 1 ∧ Dentro s.proceso

/-- The event does not begin a call while another is in course. -/
def Separada (s : Aplicacion) : Suceso → Aplicacion → Prop
  | .entra _, _ => s.enCurso = 0
  | .sale, _ => True

instance (s : Aplicacion) : (e : Suceso) → (s' : Aplicacion) → Decidable (Separada s e s')
  | .entra _, _ => inferInstanceAs (Decidable (_ = _))
  | .sale, _ => .isTrue trivial

/-- What a call that begins by itself is given. -/
def Atendida (s : Aplicacion) : Suceso → Aplicacion → Prop
  | .entra r, s' => s'.devuelto = some (if Encuentra r s.proceso then 0 else -1)
  | .sale, _ => True

variable {s s' : Aplicacion} {e : Suceso} {es : List Suceso}

theorem sano_inicial : Sano inicial := Or.inl ⟨rfl, rfl, by simp [inicial], rfl⟩

theorem not_roto_of_sano (h : Sano s) : ¬Roto s.proceso := by
  intro hroto
  rcases h with ⟨-, hsuelto⟩ | ⟨-, hdentro⟩
  · exact absurd (hroto.montado.symm.trans hsuelto.montado) (by simp)
  · exact hroto.base hdentro.base

theorem sano_paso (hi : Sano s) (hsep : Separada s e s') (h : paso s e = some s') :
    Sano s' ∧ Atendida s e s' := by
  cases e with
  | entra r =>
      have hcero : s.enCurso = 0 := hsep
      obtain ⟨-, hsuelto⟩ := hi.resolve_right fun hno => absurd (hcero.symm.trans hno.1) (by simp)
      have hget := get_suelto (r := r) hsuelto
      rw [paso] at h
      generalize ltmGetKernel r s.proceso = res at h hget
      obtain ⟨v, p⟩ := res
      obtain rfl := Option.some.inj h
      rcases hget with ⟨hen, rfl, hfin⟩ | ⟨hno, rfl, hfin⟩
      · refine ⟨Or.inr ⟨?_, hfin⟩, ?_⟩
        · show (if (0 : Int) < 0 then s.enCurso else s.enCurso + 1) = 1
          rw [if_neg (by simp), hcero]
        · rw [Atendida, if_pos hen]
          rfl
      · refine ⟨Or.inl ⟨?_, hfin⟩, ?_⟩
        · show (if (-1 : Int) < 0 then s.enCurso else s.enCurso + 1) = 0
          rw [if_pos (by simp), hcero]
        · rw [Atendida, if_neg hno]
          rfl
  | sale =>
      refine ⟨?_, trivial⟩
      rw [paso] at h
      by_cases hcero : s.enCurso = 0
      · rw [if_pos hcero] at h
        exact absurd h (by simp)
      · rw [if_neg hcero] at h
        obtain rfl := Option.some.inj h
        obtain ⟨huno, hdentro⟩ := hi.resolve_left fun hno => hcero hno.1
        refine Or.inl ⟨?_, exit_dentro hdentro⟩
        show s.enCurso - 1 = 0
        omega

/-- From here on the kernel is not to be had. -/
def Perdida : Suceso → Aplicacion → Prop
  | .entra _, s => Roto s.proceso ∧ s.devuelto = some (-1)
  | .sale, s => Roto s.proceso

theorem Perdida.roto (h : Perdida e s) : Roto s.proceso := by
  cases e with
  | entra r => exact h.1
  | sale => exact h

theorem perdida_of_montado (hm : s.proceso.montado = true) (hi : s.proceso.iniciado = true) {r : Respuestas}
    (h : paso s (.entra r) = some s') : Perdida (.entra r) s' := by
  have hget := get_montado (r := r) hm hi
  rw [paso] at h
  generalize ltmGetKernel r s.proceso = res at h hget
  obtain ⟨v, p⟩ := res
  obtain rfl := Option.some.inj h
  obtain ⟨rfl, hfin⟩ := hget
  exact ⟨hfin, rfl⟩

theorem roto_paso (hi : Roto s.proceso) (h : paso s e = some s') : Perdida e s' := by
  cases e with
  | entra r => exact perdida_of_montado hi.montado hi.iniciado h
  | sale =>
      rw [paso] at h
      by_cases hcero : s.enCurso = 0
      · rw [if_pos hcero] at h
        exact absurd h (by simp)
      · rw [if_neg hcero] at h
        obtain rfl := Option.some.inj h
        exact exit_roto hi

theorem solapada_paso (hi : Sano s) (hno : ¬Separada s e s') (h : paso s e = some s') : Perdida e s' := by
  cases e with
  | entra r =>
      obtain ⟨-, hdentro⟩ := hi.resolve_left fun hcero => hno hcero.1
      exact perdida_of_montado hdentro.montado hdentro.iniciado h
  | sale => exact absurd trivial hno

theorem roto_run (hi : Roto s.proceso) (hr : run paso s es = some s') : Roto s'.proceso :=
  run_invariant (fun s => Roto s.proceso) (fun _ _ _ => True) (fun _ _ _ hi _ h => (roto_paso hi h).roto) hi
    (Along.of_true (fun _ _ _ _ => trivial) es s) hr

theorem sano_run (hi : Sano s) (hr : run paso s es = some s') :
    Along paso Separada s es ∧ Sano s' ∨ ¬Along paso Separada s es ∧ Roto s'.proceso := by
  induction es generalizing s with
  | nil =>
      obtain rfl : s = s' := Option.some.inj hr
      exact Or.inl ⟨trivial, hi⟩
  | cons e es ih =>
      obtain ⟨t, hs, hr'⟩ := run_cons_eq_some hr
      rw [Along.cons_of_some hs]
      by_cases hsep : Separada s e t
      · rcases ih (sano_paso hi hsep hs).1 hr' with ⟨ha, hfin⟩ | ⟨hno, hfin⟩
        · exact Or.inl ⟨⟨hsep, ha⟩, hfin⟩
        · exact Or.inr ⟨fun h => hno h.2, hfin⟩
      · exact Or.inr ⟨fun h => hsep h.1, roto_run (solapada_paso hi hsep hs).roto hr'⟩

/-- The variables of a process are in order just as long as none of its calls begins while another is in
course. -/
theorem sano_iff (hr : run paso inicial es = some s) : Sano s ↔ Along paso Separada inicial es := by
  rcases sano_run sano_inicial hr with ⟨ha, hfin⟩ | ⟨hno, hfin⟩
  · exact iff_of_true hfin ha
  · exact iff_of_false (fun hs => not_roto_of_sano hs hfin) hno

/-- Calls one at a time get the kernel whenever it is there. -/
theorem atendidas (ha : Along paso Separada inicial es) :
    Along paso (fun s e s' => Sano s' ∧ Atendida s e s') inicial es :=
  along_of_invariant Sano Separada (fun _ _ _ hi hsep h => (sano_paso hi hsep h).1)
    (fun _ _ _ hi hsep h => sano_paso hi hsep h) sano_inicial ha

/-- After the first overlap `KERNEL` is null, also for the call in course, and no call gets it again. -/
theorem perdidas (hr : run paso inicial es = some s) (hno : ¬Along paso Separada inicial es)
    (es' : List Suceso) : Roto s.proceso ∧ Along paso (fun _ e s' => Perdida e s') s es' := by
  have hroto : Roto s.proceso :=
    ((sano_run sano_inicial hr).resolve_left fun h => hno h.1).2
  exact ⟨hroto, along_of_invariant (fun s => Roto s.proceso) (fun _ _ _ => True)
    (fun _ _ _ hi _ h => (roto_paso hi h).roto) (fun _ _ _ hi _ h => roto_paso hi h) hroto
    (Along.of_true (fun _ _ _ _ => trivial) es' s)⟩

/-- Two calls one after the other. -/
def seguidas : List Suceso := [.entra favorable, .sale, .entra favorable]

theorem sano_seguidas : ∃ s, run paso inicial seguidas = some s ∧ Sano s := by
  have hr : run paso inicial seguidas = some _ := rfl
  exact ⟨_, hr, (sano_iff hr).mpr (by decide)⟩

theorem atendidas_seguidas : Along paso (fun s e s' => Sano s' ∧ Atendida s e s') inicial seguidas :=
  atendidas (by decide)

/-- A call that begins while another waits: the first one ends, and a third finds no kernel. -/
theorem perdidas_solape : ∃ s, run paso inicial [.entra favorable, .entra favorable] = some s ∧
    Roto s.proceso ∧ Along paso (fun _ e s' => Perdida e s') s [.sale, .entra favorable] := by
  have hr : run paso inicial [.entra favorable, .entra favorable] = some _ := rfl
  exact ⟨_, hr, perdidas hr (by decide) _⟩

end Ltm.Ipcs
