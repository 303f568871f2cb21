import Ltm.Nodo.Hilos
import Ltm.Kernel.Reparto

/-! # What an event does to the buffers

`Traslado` is read off the code beside `Transita`: it keeps of a step only what happens to the kernel's
buffers, and of a section of `t_send` all of that.
-/

namespace Ltm.Nodo
open Kernel
set_option autoImplicit false
set_option maxHeartbeats 250000

/-- The loop of `t_send` that an event runs: its variables, and how many packets it has to send. -/
def envioDe (s : Estado) : Suceso → Option (SendLocal × ℕ)
  | .llama (.send e id (some datos) longitud) =>
    if ¬e.getKernel < 0 ∧ (s.kernel.CXs id).estadoCx = .established then
      some (.nuevo id datos longitud (s.kernel.CXs id), cuantosSends longitud)
    else none
  | .sigue h => s.hilos[h]?.bind fun hilo => match hilo.fase with
    | .sale (.send l) => some (l, l.pendientes (s.kernel.CXs l.id))
    | _ => none
  | _ => none

/-- How many times an event calls `buscar_buffer_libre`. -/
def cuantosBufferes (s : Estado) (e : Suceso) : ℕ :=
  match envioDe s e with
  | some (l, n) => min n (s.kernel.numBufPkts.toNat - (s.kernel.CXs l.id).TX.length)
  | none => match e with
    | .llama (.connect e destino origen) =>
      if (Llamada.connect e destino origen).toma s.kernel then 1 else 0
    | .recibe _ p _ => if p.cabecera.tipo = tipoCR then 1 else 0
    | _ => 0

/-- The kernels have the same buffers in the same lists. -/
structure MismosBufferes (k k' : KernelShm) : Prop where
  libres : k'.buffersLibres = k.buffersLibres
  nodos : k'.nodos = k.nodos
  TX : ∀ i, (k'.CXs i).TX = (k.CXs i).TX
  numBufPkts : k'.numBufPkts = k.numBufPkts
  CXsLibres : k'.CXsLibres = k.CXsLibres

theorem MismosBufferes.refl (k : KernelShm) : MismosBufferes k k := ⟨rfl, rfl, fun _ => rfl, rfl, rfl⟩

inductive Traslado (s : Estado) : Suceso → KernelShm → Prop
  | envia {e : Suceso} {l : SendLocal} {n : ℕ} {k' : KernelShm} {bs : List BufPkt}
      (he : envioDe s e = some (l, n)) (h : Envia l n s.kernel k' bs) : Traslado s e k'
  | conecta (e : Entorno) (destino origen origen' : TDireccion)
      (ht : (Llamada.connect e destino origen).toma s.kernel) :
      Traslado s (.llama (.connect e destino origen)) (s.kernel.trasConnect e.pid destino origen')
  | confirma {ipRemota : InAddr} {p : Tpdu} {para : Option ℕ} (ht : p.cabecera.tipo = tipoCC) :
      Traslado s (.recibe ipRemota p para) (s.kernel.trasCC p.cabecera)
  | responde {ipRemota : InAddr} {p : Tpdu} {para : Option ℕ} (ht : p.cabecera.tipo = tipoCR) :
      Traslado s (.recibe ipRemota p para) (s.kernel.trasCR ipRemota p)
  | quieto {e : Suceso} {k' : KernelShm} (he : envioDe s e = none) (hc : cuantosBufferes s e = 0)
      (h : MismosBufferes s.kernel k') : Traslado s e k'

variable {s s' : Estado}

theorem cuantosBufferes_envia {e : Suceso} {l : SendLocal} {n : ℕ} (he : envioDe s e = some (l, n)) :
    cuantosBufferes s e = min n (s.kernel.numBufPkts.toNat - (s.kernel.CXs l.id).TX.length) := by
  unfold cuantosBufferes
  rw [he]

theorem cuantosBufferes_llama {c : Llamada} (he : envioDe s (.llama c) = none) (ht : ¬c.toma s.kernel) :
    cuantosBufferes s (.llama c) = 0 := by
  unfold cuantosBufferes
  rw [he]
  cases c with
  | connect e destino origen => exact if_neg ht
  | listen => rfl
  | send => rfl

theorem cuantosBufferes_sigue {h : ℕ} (he : envioDe s (.sigue h) = none) :
    cuantosBufferes s (.sigue h) = 0 := by
  unfold cuantosBufferes
  rw [he]

theorem mismosBufferes_trasListen (k : KernelShm) (pid : Int) (escucha : TDireccion)
    (remota : Option TDireccion) : MismosBufferes k (k.trasListen pid escucha remota) := by
  refine ⟨rfl, rfl, fun i => ?_, rfl, rfl⟩
  by_cases hi : i = buscarCeldaLibre k
  · rw [hi, trasListen_self]
    rfl
  · rw [trasListen_of_ne pid escucha remota hi]

/-- A call other than a `t_send` with an ESTABLISHED connection. -/
theorem traslado_empieza {c : Llamada} {paso : Paso} {k' : KernelShm} {w : List Accion}
    (he : Empieza s.kernel c paso k' w) (hno : ∀ e id datos longitud, c ≠ .send e id datos longitud) :
    Traslado s (.llama c) k' := by
  have hnone : envioDe s (.llama c) = none := by
    cases c with
    | send e id datos longitud => exact absurd rfl (hno e id datos longitud)
    | connect => rfl
    | listen => rfl
  have hcero := cuantosBufferes_llama hnone
  cases he with
  | fuera ht => exact .quieto hnone (hcero ht) (.refl _)
  | busca ht => exact .quieto hnone (hcero ht) (.refl _)
  | lleno hn =>
      exact .quieto hnone (hcero (not_toma_of_lleno hn)) ⟨rfl, rfl, fun _ => rfl, rfl, rfl⟩
  | repetido ht => exact .quieto hnone (hcero ht) ⟨rfl, rfl, fun _ => rfl, rfl, rfl⟩
  | sinConexion e id datos longitud => exact absurd rfl (hno e id datos longitud)
  | connect e destino origen origen' hk hpar hn hrep =>
      exact .conecta e destino origen origen' ⟨hk, origen', hpar, hn, hrep⟩
  | listen e escucha escucha' remota =>
      exact .quieto hnone rfl (mismosBufferes_trasListen s.kernel e.pid escucha' remota)
  | send e id datos longitud => exact absurd rfl (hno e id (some datos) longitud)

theorem traslado_send (e : Entorno) (id : Int) (datos : Option (List UInt8)) (longitud : UInt64) :
    Traslado s (.llama (.send e id datos longitud)) (tSend e id datos longitud ⟨s.kernel, []⟩).2.kernel := by
  cases datos with
  | none =>
      refine .quieto rfl rfl ?_
      unfold tSend
      split <;> exact .refl _
  | some datos =>
      by_cases hok : ¬e.getKernel < 0 ∧ (s.kernel.CXs id).estadoCx = .established
      · have henvio : envioDe s (.llama (.send e id (some datos) longitud)) =
            some (.nuevo id datos longitud (s.kernel.CXs id), cuantosSends longitud) := by
          rw [envioDe, if_pos hok]
        obtain ⟨bs, hbs⟩ := tSend_envia hok.1 hok.2
        exact .envia henvio hbs
      · have hnone : envioDe s (.llama (.send e id (some datos) longitud)) = none := by
          rw [envioDe, if_neg hok]
        refine .quieto hnone (cuantosBufferes_llama hnone not_false) ?_
        unfold tSend
        by_cases hk : e.getKernel < 0
        · rw [if_pos hk]
          exact .refl _
        · rw [if_neg hk]
          dsimp only
          rw [bloquearAcceso_bind, leeCx_bind, if_pos fun hest => hok ⟨hk, hest⟩]
          exact ⟨rfl, rfl, fun _ => rfl, rfl, rfl⟩

theorem traslado_sigue {h : ℕ} (hp : paso s (.sigue h) = some s') : Traslado s (.sigue h) s'.kernel := by
  obtain ⟨hilo, l, paso, k', w, hh, hf, he, hk⟩ : ∃ hilo l paso k' w, s.hilos[h]? = some hilo ∧
      hilo.fase = .sale l ∧ Sigue s.kernel l paso k' w ∧ s'.kernel = k' := by
    cases transita_of_paso hp with
    | acaba hs hh hf he => exact ⟨_, _, _, _, _, hh, hf, he, rfl⟩
    | vuelve hs hh hf he => exact ⟨_, _, _, _, _, hh, hf, he, rfl⟩
  cases he with
  | connect i =>
      have hnone : envioDe s (.sigue h) = none := by rw [envioDe, hh, Option.bind_some, hf]
      rw [hk]
      exact .quieto hnone (cuantosBufferes_sigue hnone) ⟨rfl, rfl, fun _ => rfl, rfl, rfl⟩
  | listen i =>
      have hnone : envioDe s (.sigue h) = none := by rw [envioDe, hh, Option.bind_some, hf]
      rw [hk]
      exact .quieto hnone (cuantosBufferes_sigue hnone) ⟨rfl, rfl, fun _ => rfl, rfl, rfl⟩
  | send l =>
      rw [paso_sigue hh hf hp]
      obtain ⟨bs, hbs⟩ := tSendSigue_envia (k := s.kernel) l
      refine .envia ?_ hbs
      rw [envioDe, hh, Option.bind_some, hf]

theorem traslado_of_paso {e : Suceso} (h : paso s e = some s') : Traslado s e s'.kernel := by
  cases e with
  | sigue h' => exact traslado_sigue h
  | llama c =>
      cases c with
      | send e id datos longitud =>
          rw [(paso_llama h).1]
          exact traslado_send e id datos longitud
      | connect e destino origen =>
          cases transita_of_paso h with
          | termina hs he => exact traslado_empieza he (by simp)
          | empieza hs he => exact traslado_empieza he (by simp)
      | listen e escucha remota =>
          cases transita_of_paso h with
          | termina hs he => exact traslado_empieza he (by simp)
          | empieza hs he => exact traslado_empieza he (by simp)
  | recibe ipRemota p para =>
      cases transita_of_paso h with
      | recibe hs hd he =>
          cases he with
          | cc ht => exact .confirma ht
          | cr ht => exact .responde ht
          | otro hcc hcr => exact .quieto rfl (if_neg hcr) ⟨rfl, rfl, fun _ => rfl, rfl, rfl⟩
  | citaDaemon h' =>
      cases transita_of_paso h
      exact .quieto rfl rfl (.refl _)
  | cita h₁ h₂ =>
      cases transita_of_paso h
      exact .quieto rfl rfl (.refl _)
  | despierta h' =>
      cases transita_of_paso h
      exact .quieto rfl rfl (.refl _)
  | suelta =>
      cases transita_of_paso h
      exact .quieto rfl rfl (.refl _)

theorem numBufPkts_paso {e : Suceso} (h : paso s e = some s') :
    s'.kernel.numBufPkts = s.kernel.numBufPkts := by
  have ht := traslado_of_paso h
  generalize s'.kernel = k' at ht
  cases ht with
  | envia he henv => exact henv.numBufPkts
  | quieto he hc hbuf => exact hbuf.numBufPkts
  | conecta => rfl
  | confirma => rfl
  | responde => rfl

theorem cuantosBufferes_conecta {e : Entorno} {destino origen : TDireccion}
    (ht : (Llamada.connect e destino origen).toma s.kernel) :
    cuantosBufferes s (.llama (.connect e destino origen)) = 1 := if_pos ht

theorem cuantosBufferes_responde {ipRemota : InAddr} {p : Tpdu} {para : Option ℕ}
    (ht : p.cabecera.tipo = tipoCR) : cuantosBufferes s (.recibe ipRemota p para) = 1 := if_pos ht

theorem cuantosBufferes_confirma {ipRemota : InAddr} {p : Tpdu} {para : Option ℕ}
    (ht : p.cabecera.tipo = tipoCC) : cuantosBufferes s (.recibe ipRemota p para) = 0 :=
  if_neg fun hcr => tipoCR_ne_tipoCC hcr ht

/-- A step makes as many buffers as it asks for beyond the free ones. -/
theorem nodos_paso {e : Suceso} (h : paso s e = some s') : s'.kernel.nodos =
    s.kernel.nodos + (cuantosBufferes s e - s.kernel.buffersLibres.length) := by
  have ht := traslado_of_paso h
  generalize s'.kernel = k' at ht
  cases ht with
  | envia he henv =>
      rw [cuantosBufferes_envia he, ← henv.cuantos]
      have := henv.toma.justos
      have := henv.toma.creados
      omega
  | conecta e destino origen origen' ht =>
      have htoma := toma_trasConnect (k := s.kernel) e.pid destino origen'
      rw [cuantosBufferes_conecta ht]
      have := htoma.justos
      have := htoma.creados
      rw [List.length_singleton] at *
      omega
  | confirma ht => rw [cuantosBufferes_confirma ht, Nat.zero_sub]; rfl
  | responde ht =>
      rw [cuantosBufferes_responde ht]
      show (buscarBufferLibre s.kernel).nodos = _
      cases hk : s.kernel.buffersLibres <;> simp [buscarBufferLibre, hk]
  | quieto he hc h => rw [hc, h.nodos, Nat.zero_sub, Nat.add_zero]

theorem kernel_recibeCC {ipRemota : InAddr} {p : Tpdu} {para : Option ℕ}
    (h : paso s (.recibe ipRemota p para) = some s') (ht : p.cabecera.tipo = tipoCC) :
    s'.kernel = s.kernel.trasCC p.cabecera := by
  cases transita_of_paso h with
  | recibe hs hd he =>
      cases he with
      | cc => rfl
      | cr ht' => exact absurd ht (tipoCR_ne_tipoCC ht')
      | otro hcc => exact absurd ht hcc

end Ltm.Nodo
