import Ltm.Kernel.Pasos

/-! # A host: its calls and its daemon

The state of one host: the kernel, every call made so far, and the daemon. One event is one step of
one process, or a meeting of two processes at the barrier of a cell. Fields marked as a record are not
in the code and no step depends on them.
-/

namespace Ltm.Nodo
open Kernel
set_option autoImplicit false
set_option maxHeartbeats 250000

/-- Where a call is: waiting at the barrier of the cell `i`, past the barrier, or returned. -/
inductive Fase
  | espera (i : Int) (l : Local)
  | sale (l : Local)
  | fin (r : Int)
  deriving DecidableEq, Repr

/-- What is on record about a call. -/
structure Ficha where
  llamada : Llamada
  /-- the cell it was given -/
  celda : Option Int
  /-- the buffer of the CR it sent -/
  cr : Option BufPkt
  /-- it has added one to `num_CXs` and not taken it back -/
  cuenta : Bool

structure Hilo where
  fase : Fase
  ficha : Ficha
  /-- record: the result in the answer to it that the daemon has processed -/
  respuesta : Option Int

structure Estado where
  kernel : KernelShm
  hilos : List Hilo
  /-- the barrier the daemon waits at; with it, as a record, the call that the packet answered -/
  daemon : Option (Int × Option ℕ)
  /-- record: the call that took the cell last -/
  dueno : Int → Option ℕ
  /-- record: the trace of the last step -/
  ultima : List Accion

inductive Suceso
  | llama (c : Llamada)
  /-- the call `h`, past its barrier, goes on -/
  | sigue (h : ℕ)
  /-- the daemon receives a packet; a CC comes with the call whose CR it answers, as a record -/
  | recibe (ipRemota : InAddr) (p : Tpdu) (para : Option ℕ)
  /-- the daemon and the call `h` meet at a barrier -/
  | citaDaemon (h : ℕ)
  /-- the calls `h` and `h'` meet at a barrier -/
  | cita (h h' : ℕ)
  /-- the call `h` is woken by something else -/
  | despierta (h : ℕ)
  /-- the daemon is woken by something else -/
  | suelta

/-! ## Steps -/

def celdaDe : Local → Option Int
  | .connect i => some i
  | .listen i => some i
  | .send _ => none

/-- The buffer at the end of `TX` that a `t_connect` has just put there. -/
def crDe (k : KernelShm) : Local → Option BufPkt
  | .connect i => (k.CXs i).TX.getLast?
  | _ => none

/-- A call that has come to its first wait, at the barrier of the cell `i`. -/
def hiloNuevo (c : Llamada) (i : Int) (l : Local) (k : KernelShm) : Hilo where
  fase := .espera i l
  ficha := ⟨c, celdaDe l, crDe k l, (celdaDe l).isSome⟩
  respuesta := none

def hiloTerminado (c : Llamada) (r : Int) : Hilo := ⟨.fin r, ⟨c, none, none, false⟩, none⟩

/-- The record of the owners once the call `h` waits with `l`. -/
def anotaDueno (dueno : Int → Option ℕ) (h : ℕ) (l : Local) : Int → Option ℕ :=
  match celdaDe l with
  | none => dueno
  | some i => Function.update dueno i (some h)

/-- The state after the first step of the call `c` has ended in `r`. -/
def Estado.trasLlamar (s : Estado) (c : Llamada) (r : Paso × Mundo) : Option Estado :=
  match r.1 with
  | .busca => none
  | .retorna v =>
    some { s with
      kernel := r.2.kernel
      hilos := s.hilos ++ [hiloTerminado c v]
      ultima := r.2.traza }
  | .duerme i l =>
    some { s with
      kernel := r.2.kernel
      hilos := s.hilos ++ [hiloNuevo c i l r.2.kernel]
      dueno := anotaDueno s.dueno s.hilos.length l
      ultima := r.2.traza }

/-- The step of a call takes one from `num_CXs`. -/
def descuenta (k : KernelShm) : Local → Bool
  | .connect i => (k.CXs i).estadoCx = .closed
  | _ => false

def Hilo.acabado (hilo : Hilo) (k : KernelShm) (l : Local) (v : Int) : Hilo :=
  { hilo with
    fase := .fin v
    ficha := { hilo.ficha with cuenta := hilo.ficha.cuenta && !descuenta k l } }

/-- The state after a step of the call `h`, which is `hilo`, has ended in `r`. -/
def Estado.trasSeguir (s : Estado) (h : ℕ) (hilo : Hilo) (l : Local) (r : Paso × Mundo) : Option Estado :=
  match r.1 with
  | .busca => none
  | .retorna v =>
    some { s with
      kernel := r.2.kernel
      hilos := s.hilos.set h (hilo.acabado s.kernel l v)
      ultima := r.2.traza }
  | .duerme i l' =>
    some { s with
      kernel := r.2.kernel
      hilos := s.hilos.set h { hilo with fase := .espera i l' }
      ultima := r.2.traza }

def barreraDe (w : List Accion) : Option Int :=
  (w.filterMap fun a => match a with
    | .barrera i => some i
    | _ => none).getLast?

/-- The call that a packet answers: for a CC the one it comes with, for a CR the one that listens. -/
def Estado.destinatario (s : Estado) (p : Tpdu) (para : Option ℕ) : Option ℕ :=
  if p.cabecera.tipo = tipoCC then para
  else if p.cabecera.tipo = tipoCR then s.dueno (asignConexionCR p s.kernel)
  else none

def resultadoDe (p : Tpdu) : Int :=
  if p.cabecera.tipo = tipoCC then p.cabecera.conexionAceptada else exOk

def anotaRespuesta (v : Int) (para : Option ℕ) (hilos : List Hilo) : List Hilo :=
  match para with
  | none => hilos
  | some h => hilos.modify h fun hilo => { hilo with respuesta := some v }

/-- The state after the daemon has processed a packet, the section ending in `m`. -/
def Estado.trasRecibir (s : Estado) (p : Tpdu) (para : Option ℕ) (m : Mundo) : Estado :=
  { s with
    kernel := m.kernel
    hilos := anotaRespuesta (resultadoDe p) (s.destinatario p para) s.hilos
    daemon := (barreraDe m.traza).map fun i => (i, s.destinatario p para)
    ultima := m.traza }

/-- The state with the call `h`, which is `hilo`, past its barrier. -/
def Estado.despertado (s : Estado) (h : ℕ) (hilo : Hilo) (l : Local) : Estado :=
  { s with hilos := s.hilos.set h { hilo with fase := .sale l }, ultima := [] }

/-- One step; a section that takes the semaphore waits until it is free, the daemon until it is back in
its loop. -/
def paso (s : Estado) : Suceso → Option Estado
  | .llama c =>
    let r := c.empieza ⟨s.kernel, []⟩
    if s.kernel.semaforo ∧ r.2.traza ≠ [] then none else s.trasLlamar c r
  | .sigue h => s.hilos[h]?.bind fun hilo => match hilo.fase with
    | .sale l =>
      if s.kernel.semaforo then none else s.trasSeguir h hilo l (l.sigue ⟨s.kernel, []⟩)
    | _ => none
  | .recibe ipRemota p para =>
    if s.kernel.semaforo ∨ s.daemon.isSome then none
    else some (s.trasRecibir p para (paquete ipRemota p ⟨s.kernel, []⟩).2)
  | .citaDaemon h => s.hilos[h]?.bind fun hilo => match hilo.fase with
    | .espera i l =>
      if s.daemon.map Prod.fst = some i then
        some { s.despertado h hilo l with daemon := none }
      else none
    | _ => none
  | .cita h h' => s.hilos[h]?.bind fun hilo => s.hilos[h']?.bind fun hilo' =>
    match hilo.fase, hilo'.fase with
    | .espera i l, .espera i' l' =>
      if h ≠ h' ∧ i = i' then some ((s.despertado h hilo l).despertado h' hilo' l') else none
    | _, _ => none
  | .despierta h => s.hilos[h]?.bind fun hilo => match hilo.fase with
    | .espera _ l => some (s.despertado h hilo l)
    | _ => none
  | .suelta => if s.daemon.isSome then some { s with daemon := none, ultima := [] } else none

/-- A host whose daemon has just entered its loop. -/
def inicial (k : KernelShm) : Estado := ⟨k, [], none, fun _ => none, []⟩

def conecta (puertoDestino puertoOrigen : Int16) : Llamada :=
  .connect entornoVacio ⟨0x0a000002, puertoDestino⟩ ⟨0x0a000001, puertoOrigen⟩

def escucha (puerto : Int16) : Llamada := .listen entornoVacio ⟨0x0a000001, puerto⟩ none

/-- The `h`-th call, a connect that is refused and returns. -/
def rechazado (h : ℕ) : List Suceso :=
  [.llama (conecta (80 + Int16.ofNat h) (1000 + Int16.ofNat h)),
    .recibe 0x0a000002 (ccPara 0 exNoTsap) (some h), .citaDaemon h, .sigue h]

/-! ## Everything that a step can do -/

inductive Transita (s : Estado) : Suceso → Estado → Prop
  | termina {c : Llamada} {v : Int} {k' : KernelShm} {w : List Accion}
      (hs : s.kernel.semaforo = false ∨ w = []) (he : Empieza s.kernel c (.retorna v) k' w) :
      Transita s (.llama c)
        { s with kernel := k', hilos := s.hilos ++ [hiloTerminado c v], ultima := w }
  | empieza {c : Llamada} {i : Int} {l : Local} {k' : KernelShm} {w : List Accion}
      (hs : s.kernel.semaforo = false) (he : Empieza s.kernel c (.duerme i l) k' w) :
      Transita s (.llama c)
        { s with
          kernel := k'
          hilos := s.hilos ++ [hiloNuevo c i l k']
          dueno := anotaDueno s.dueno s.hilos.length l
          ultima := w }
  | acaba {h : ℕ} {hilo : Hilo} {l : Local} {v : Int} {k' : KernelShm} {w : List Accion}
      (hs : s.kernel.semaforo = false) (hh : s.hilos[h]? = some hilo) (hf : hilo.fase = .sale l)
      (he : Sigue s.kernel l (.retorna v) k' w) :
      Transita s (.sigue h)
        { s with
          kernel := k'
          hilos := s.hilos.set h (hilo.acabado s.kernel l v)
          ultima := w }
  | vuelve {h : ℕ} {hilo : Hilo} {l l' : Local} {i : Int} {k' : KernelShm} {w : List Accion}
      (hs : s.kernel.semaforo = false) (hh : s.hilos[h]? = some hilo) (hf : hilo.fase = .sale l)
      (he : Sigue s.kernel l (.duerme i l') k' w) :
      Transita s (.sigue h)
        { s with
          kernel := k', hilos := s.hilos.set h { hilo with fase := .espera i l' }, ultima := w }
  | recibe {ipRemota : InAddr} {p : Tpdu} {para : Option ℕ} {k' : KernelShm} {w : List Accion}
      (hs : s.kernel.semaforo = false) (hd : s.daemon = none)
      (he : Recibe s.kernel ipRemota p k' w) :
      Transita s (.recibe ipRemota p para) (s.trasRecibir p para ⟨k', w⟩)
  | citaDaemon {h : ℕ} {hilo : Hilo} {i : Int} {l : Local} {para : Option ℕ}
      (hh : s.hilos[h]? = some hilo) (hf : hilo.fase = .espera i l)
      (hd : s.daemon = some (i, para)) :
      Transita s (.citaDaemon h) { s.despertado h hilo l with daemon := none }
  | cita {h h' : ℕ} {hilo hilo' : Hilo} {i : Int} {l l' : Local} (hne : h ≠ h')
      (hh : s.hilos[h]? = some hilo) (hf : hilo.fase = .espera i l)
      (hh' : s.hilos[h']? = some hilo') (hf' : hilo'.fase = .espera i l') :
      Transita s (.cita h h') ((s.despertado h hilo l).despertado h' hilo' l')
  | despierta {h : ℕ} {hilo : Hilo} {i : Int} {l : Local} (hh : s.hilos[h]? = some hilo)
      (hf : hilo.fase = .espera i l) : Transita s (.despierta h) (s.despertado h hilo l)
  | suelta {i : Int} {para : Option ℕ} (hd : s.daemon = some (i, para)) :
      Transita s .suelta { s with daemon := none, ultima := [] }

section Transita
variable {s s' : Estado} {x : Fase}

/-- A step for calls at a barrier. -/
theorem espera_of_some {f : Int → Local → Option Estado}
    (h : (match x with | .espera i l => f i l | _ => none) = some s') :
    ∃ i l, x = .espera i l ∧ f i l = some s' := by
  cases x with
  | espera i l => exact ⟨i, l, rfl, h⟩
  | sale l => exact absurd h (by simp)
  | fin r => exact absurd h (by simp)

/-- A step for calls past their barrier. -/
theorem sale_of_some {f : Local → Option Estado}
    (h : (match x with | .sale l => f l | _ => none) = some s') :
    ∃ l, x = .sale l ∧ f l = some s' := by
  cases x with
  | espera i l => exact absurd h (by simp)
  | sale l => exact ⟨l, rfl, h⟩
  | fin r => exact absurd h (by simp)

theorem traza_of_duerme {k k' : KernelShm} {c : Llamada} {i : Int} {l : Local} {w : List Accion}
    (he : Empieza k c (.duerme i l) k' w) : w ≠ [] := by
  cases he with
  | connect => simp [trazaConnect]
  | listen => simp [trazaListen]
  | send _ _ _ _ _ hfin =>
      obtain ⟨w', e, -⟩ := hfin.traza
      dsimp only at e
      rw [e]
      simp

theorem trasLlamar_of_paso {c : Llamada} (h : paso s (.llama c) = some s') :
    (s.kernel.semaforo = false ∨ (c.empieza ⟨s.kernel, []⟩).2.traza = []) ∧
      s.trasLlamar c (c.empieza ⟨s.kernel, []⟩) = some s' := by
  rw [paso] at h
  by_cases hs : s.kernel.semaforo = true ∧ (c.empieza ⟨s.kernel, []⟩).2.traza ≠ []
  · rw [if_pos hs] at h
    exact absurd h (by simp)
  · rw [if_neg hs] at h
    refine ⟨(not_and_or.mp hs).imp (fun hs => ?_) not_not.mp, h⟩
    simpa using hs

theorem trasSeguir_of_paso {h : ℕ} (hp : paso s (.sigue h) = some s') :
    ∃ hilo l, s.hilos[h]? = some hilo ∧ hilo.fase = .sale l ∧ s.kernel.semaforo = false ∧
      s.trasSeguir h hilo l (l.sigue ⟨s.kernel, []⟩) = some s' := by
  rw [paso] at hp
  obtain ⟨hilo, hh, hp⟩ := Option.bind_eq_some_iff.mp hp
  obtain ⟨l, hf, hp⟩ := sale_of_some hp
  by_cases hs : s.kernel.semaforo = true
  · rw [if_pos hs] at hp
    exact absurd hp (by simp)
  · rw [if_neg hs] at hp
    exact ⟨hilo, l, hh, hf, by simpa using hs, hp⟩

theorem transita_llama {c : Llamada} (h : paso s (.llama c) = some s') :
    Transita s (.llama c) s' := by
  obtain ⟨hlibre, h⟩ := trasLlamar_of_paso h
  have he := empieza_paso (k := s.kernel) c
  generalize c.empieza ⟨s.kernel, []⟩ = r at h he hlibre
  obtain ⟨paso, k', w⟩ := r
  cases paso with
  | busca => exact absurd h (by simp [Estado.trasLlamar])
  | retorna v =>
      obtain rfl := Option.some.inj h
      exact .termina hlibre he
  | duerme i l =>
      obtain rfl := Option.some.inj h
      exact .empieza (hlibre.resolve_right (traza_of_duerme he)) he

theorem transita_sigue {h : ℕ} (hp : paso s (.sigue h) = some s') : Transita s (.sigue h) s' := by
  obtain ⟨hilo, l, hh, hf, hlibre, hp⟩ := trasSeguir_of_paso hp
  have he := sigue_paso (k := s.kernel) l
  generalize l.sigue ⟨s.kernel, []⟩ = r at hp he
  obtain ⟨paso, k', w⟩ := r
  cases paso with
  | busca => exact absurd hp (by simp [Estado.trasSeguir])
  | retorna v =>
      obtain rfl := Option.some.inj hp
      exact .acaba hlibre hh hf he
  | duerme i l' =>
      obtain rfl := Option.some.inj hp
      exact .vuelve hlibre hh hf he

theorem transita_recibe {ipRemota : InAddr} {p : Tpdu} {para : Option ℕ}
    (h : paso s (.recibe ipRemota p para) = some s') : Transita s (.recibe ipRemota p para) s' := by
  rw [paso] at h
  by_cases hs : s.kernel.semaforo = true ∨ s.daemon.isSome = true
  · rw [if_pos hs] at h
    exact absurd h (by simp)
  rw [if_neg hs] at h
  obtain ⟨hlibre, hd⟩ := not_or.mp hs
  obtain rfl := Option.some.inj h
  exact .recibe (by simpa using hlibre) (by simpa using hd) (recibe_paso ipRemota p)

theorem transita_citaDaemon {h : ℕ} (hp : paso s (.citaDaemon h) = some s') :
    Transita s (.citaDaemon h) s' := by
  rw [paso] at hp
  obtain ⟨hilo, hh, hp⟩ := Option.bind_eq_some_iff.mp hp
  obtain ⟨i, l, hf, hp⟩ := espera_of_some hp
  by_cases hd : s.daemon.map Prod.fst = some i
  · rw [if_pos hd] at hp
    obtain rfl := Option.some.inj hp
    obtain ⟨⟨i', para⟩, hd', rfl⟩ := Option.map_eq_some_iff.mp hd
    exact .citaDaemon hh hf hd'
  · rw [if_neg hd] at hp
    exact absurd hp (by simp)

theorem transita_cita {h h' : ℕ} (hp : paso s (.cita h h') = some s') :
    Transita s (.cita h h') s' := by
  rw [paso] at hp
  obtain ⟨hilo, hh, hp⟩ := Option.bind_eq_some_iff.mp hp
  obtain ⟨hilo', hh', hp⟩ := Option.bind_eq_some_iff.mp hp
  cases hf : hilo.fase with
  | sale l => exact absurd hp (by simp [hf])
  | fin r => exact absurd hp (by simp [hf])
  | espera i l =>
      cases hf' : hilo'.fase with
      | sale l => exact absurd hp (by simp [hf, hf'])
      | fin r => exact absurd hp (by simp [hf, hf'])
      | espera i' l' =>
          rw [hf, hf'] at hp
          dsimp only at hp
          by_cases hne : h ≠ h' ∧ i = i'
          · rw [if_pos hne] at hp
            obtain ⟨hne, rfl⟩ := hne
            obtain rfl := Option.some.inj hp
            exact .cita hne hh hf hh' hf'
          · rw [if_neg hne] at hp
            exact absurd hp (by simp)

theorem transita_despierta {h : ℕ} (hp : paso s (.despierta h) = some s') :
    Transita s (.despierta h) s' := by
  rw [paso] at hp
  obtain ⟨hilo, hh, hp⟩ := Option.bind_eq_some_iff.mp hp
  obtain ⟨i, l, hf, hp⟩ := espera_of_some hp
  obtain rfl := Option.some.inj hp
  exact .despierta hh hf

theorem transita_suelta (hp : paso s .suelta = some s') : Transita s .suelta s' := by
  rw [paso] at hp
  cases hd : s.daemon with
  | none => exact absurd hp (by simp [hd])
  | some d =>
      simp only [hd, Option.isSome_some, if_true] at hp
      obtain rfl := Option.some.inj hp
      exact .suelta hd

theorem transita_of_paso {e : Suceso} (h : paso s e = some s') : Transita s e s' := by
  cases e with
  | llama c => exact transita_llama h
  | sigue h' => exact transita_sigue h
  | recibe ipRemota p para => exact transita_recibe h
  | citaDaemon h' => exact transita_citaDaemon h
  | cita h₁ h₂ => exact transita_cita h
  | despierta h' => exact transita_despierta h
  | suelta => exact transita_suelta h

end Transita

end Ltm.Nodo
