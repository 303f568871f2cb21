import Ltm.Red.Parejas

/-! # The packet that stops a host

The daemon takes the semaphore for every packet, and gives it back in `case CC` and `case CR` only. So
the first packet of another type that reaches a host, such as a DATOS packet, stops it, and nothing else
does (`parada`): from then on its kernel is not changed, no call that waits in it returns, it handles no
packet and sends none (`congelada`).
-/

namespace Ltm.Red
open Kernel Nodo Runs
set_option autoImplicit false
set_option maxHeartbeats 250000

/-! ## The semaphore after a step of a host -/

section Nodo
variable {s s' : Estado} {k k' : KernelShm} {pa : Paso} {w : List Accion}

theorem semaforo_empieza {c : Llamada} (hs : k.semaforo = false ∨ w = []) (he : Empieza k c pa k' w) :
    k'.semaforo = k.semaforo := by
  cases he with
  | fuera | busca => rfl
  | lleno | repetido | sinConexion | connect | listen => exact (hs.resolve_right (List.cons_ne_nil _ _)).symm
  | send _ _ _ _ _ hfin =>
      obtain ⟨w', e, -⟩ := hfin.traza
      rw [hfin.libre, hs.resolve_right (by rw [show w = _ from e]; exact List.cons_ne_nil _ _)]

theorem semaforo_sigue {l : Local} (he : Sigue k l pa k' w) : k'.semaforo = false := by
  cases he with
  | connect | listen => rfl
  | send _ hfin => exact hfin.libre

/-- The packet has a type for which `bucle_principal` has no case with code. -/
def SinCaso (p : Tpdu) : Prop := p.cabecera.tipo ≠ tipoCC ∧ p.cabecera.tipo ≠ tipoCR

theorem semaforo_recibe {ip : InAddr} {p : Tpdu} (he : Recibe k ip p k' w) :
    k'.semaforo = true ↔ SinCaso p := by
  cases he with
  | cc ht => exact iff_of_false Bool.false_ne_true fun h => h.1 ht
  | cr ht => exact iff_of_false Bool.false_ne_true fun h => h.2 ht
  | otro hcc hcr => exact iff_of_true rfl ⟨hcc, hcr⟩

theorem semaforo_paso {e : Suceso} (hno : ¬deRed e = true) (h : Nodo.paso s e = some s') :
    s'.kernel.semaforo = s.kernel.semaforo := by
  cases transita_of_paso h with
  | termina hs he => exact semaforo_empieza hs he
  | empieza hs he => exact semaforo_empieza (Or.inl hs) he
  | acaba hs _ _ he | vuelve hs _ _ he => exact (semaforo_sigue he).trans hs.symm
  | recibe => exact absurd rfl hno
  | citaDaemon | cita | despierta | suelta => rfl

/-- Nothing has happened in the host but meetings at its barriers. -/
structure Helado (s s' : Estado) : Prop where
  kernel : s'.kernel = s.kernel
  pendiente : ∀ h, s'.pendiente h = s.pendiente h

theorem Helado.trans {s'' : Estado} (h : Helado s s') (h' : Helado s' s'') : Helado s s'' :=
  ⟨h'.kernel.trans h.kernel, fun j => (h'.pendiente j).trans (h.pendiente j)⟩

theorem helado_paso {e : Suceso} (hs : s.kernel.semaforo = true) (h : Nodo.paso s e = some s') :
    ¬deRed e = true ∧ Helado s s' ∧ envios s'.ultima = [] := by
  have hocupado : ∀ {P : Prop}, s.kernel.semaforo = false → P := fun hlibre =>
    absurd (hs.symm.trans hlibre) (by simp)
  cases transita_of_paso h with
  | termina hlibre he =>
      obtain rfl := hlibre.resolve_left fun hlibre => hocupado hlibre
      refine ⟨by simp [deRed], ⟨he.kernel_of_nil, fun h => Option.ext fun l => ?_⟩, rfl⟩
      exact (pendiente_concat rfl).trans (or_iff_left (by simp [hiloTerminado, Fase.pendiente]))
  | empieza hlibre | acaba hlibre | vuelve hlibre | recibe hlibre => exact hocupado hlibre
  | citaDaemon hh hf => exact ⟨by simp [deRed], ⟨rfl, pendiente_despertado hh hf⟩, rfl⟩
  | cita hne hh hf hh' hf' => exact ⟨by simp [deRed], ⟨rfl, pendiente_cita hne hh hf hh' hf'⟩, rfl⟩
  | despierta hh hf => exact ⟨by simp [deRed], ⟨rfl, pendiente_despertado hh hf⟩, rfl⟩
  | suelta => exact ⟨by simp [deRed], ⟨rfl, fun _ => rfl⟩, rfl⟩

end Nodo

/-! ## In the network -/

/-- The event is the arrival at the host `a` of a packet without a case. -/
def LlegaSinCaso (a : InAddr) : Evento → Prop
  | .entrega d _ => d.destino = a ∧ SinCaso d.tpdu
  | _ => False

instance (p : Tpdu) : Decidable (SinCaso p) := inferInstanceAs (Decidable (_ ∧ _))

instance (a : InAddr) : (e : Evento) → Decidable (LlegaSinCaso a e)
  | .entrega _ _ => inferInstanceAs (Decidable (_ ∧ _))
  | .nodo _ _ => .isFalse id
  | .pierde _ => .isFalse id

def Sistema.Parado (σ : Sistema) (a : InAddr) : Prop := (σ.nodos a).kernel.semaforo = true

instance (σ : Sistema) (a : InAddr) : Decidable (σ.Parado a) := inferInstanceAs (Decidable (_ = _))

variable {σ σ' : Sistema} {a b : InAddr} {e : Evento} {x : Evento × Lectura}
  {xs xs' : List (Evento × Lectura)} {d : Datagrama} {s' : Estado}

theorem parado_tras_self {red : List Datagrama} {s' : Estado} :
    (σ.tras a red s').Parado a ↔ s'.kernel.semaforo = true := by
  rw [Sistema.Parado, tras_nodos_self]

theorem parado_tras_of_ne {red : List Datagrama} {s' : Estado} (hab : a ≠ b) :
    (σ.tras b red s').Parado a ↔ σ.Parado a := by
  rw [Sistema.Parado, tras_nodos_of_ne hab, Sistema.Parado]

theorem parado_pasoDatos (h : pasoDatos σ e = some σ') (a : InAddr) :
    σ'.Parado a ↔ σ.Parado a ∨ LlegaSinCaso a e := by
  cases avanza_of_pasoDatos h with
  | @nodo b e s' hno hs' =>
      show _ ↔ _ ∨ False
      rw [or_false]
      by_cases hab : a = b
      · subst hab
        rw [parado_tras_self, semaforo_paso hno hs']
        rfl
      · rw [parado_tras_of_ne hab]
  | @entrega d para s' hd hs' =>
      show _ ↔ _ ∨ (d.destino = a ∧ _)
      by_cases hab : a = d.destino
      · subst hab
        cases transita_of_paso hs' with
        | recibe hlibre _ he =>
            have hantes : ¬σ.Parado d.destino := by
              rw [Sistema.Parado, hlibre]
              exact Bool.false_ne_true
            have hcaso := semaforo_recibe he
            rw [parado_tras_self, or_iff_right hantes, and_iff_right rfl]
            exact hcaso
      · have hotro : ¬(d.destino = a ∧ SinCaso d.tpdu) := fun h => hab h.1.symm
        rw [parado_tras_of_ne hab, or_iff_left hotro]
  | pierde hd =>
      show _ ↔ _ ∨ False
      rw [or_false]
      rfl

theorem parado_paso (h : pasoRed σ x = some σ') (a : InAddr) :
    σ'.Parado a ↔ σ.Parado a ∨ LlegaSinCaso a x.1 := by
  obtain ⟨τ, hτ, rfl⟩ := Option.map_eq_some_iff.mp (pasoRed_eq_some.mp h).1
  exact parado_pasoDatos hτ a

theorem parado_run (hr : run pasoRed σ xs = some σ') (a : InAddr) :
    σ'.Parado a ↔ σ.Parado a ∨ ∃ x ∈ xs, LlegaSinCaso a x.1 := by
  induction xs generalizing σ with
  | nil =>
      obtain rfl : σ = σ' := Option.some.inj hr
      simp
  | cons x xs ih =>
      obtain ⟨τ, hs, hr'⟩ := run_cons_eq_some hr
      rw [ih hr', parado_paso hs, or_assoc]
      simp only [List.mem_cons, exists_eq_or_imp]

/-- What a stopped host has left to do: its calls may still be let past their barriers. -/
structure Congelada (a : InAddr) (σ σ' : Sistema) : Prop where
  helado : Helado (σ.nodos a) (σ'.nodos a)
  /-- it puts nothing more on the network -/
  envios : ∀ d, d.origen = a → σ'.red.count d ≤ σ.red.count d

/-- A step of another host, or one that sends nothing, puts no datagram of the host `a` on the network. -/
theorem count_le_of_leyendo (h : leyendo pasoDatos σ x = some σ') (hd : d.origen = a)
    (hs : ∀ b, anfitrion x.1 = some b → b ≠ a ∨ envios (σ'.nodos b).ultima = []) :
    σ'.red.count d ≤ σ.red.count d := by
  obtain ⟨τ, -, rfl⟩ := Option.map_eq_some_iff.mp h
  have hquedan : (σ.quedan x.1).count d ≤ σ.red.count d := by
    cases x.1 with
    | nodo => exact Nat.le_refl _
    | entrega | pierde => exact List.erase_sublist.count_le d
  have hsale : d ∉ datagramas x.1 (leidos x.2 (τ.traza x.1)) := by
    unfold datagramas Sistema.traza
    cases hb : anfitrion x.1 with
    | none => exact List.not_mem_nil
    | some b =>
        intro hmem
        obtain ⟨p, hp, rfl⟩ := List.mem_map.mp hmem
        rcases hs b hb with hne | hnada
        · exact hne hd
        · change envios (τ.nodos b).ultima = [] at hnada
          rw [Option.elim_some, leidos, hnada] at hp
          exact absurd hp List.not_mem_nil
  rw [List.count_append, List.count_eq_zero_of_not_mem hsale]
  exact hquedan

/-- What a step is for a stopped host: one of another host, or none of the daemon. -/
theorem helado_pasoDatos (hp : σ.Parado a) (h : pasoDatos σ e = some σ') :
    (∀ d para, e = .entrega d para → d.destino ≠ a) ∧ Helado (σ.nodos a) (σ'.nodos a) ∧
      ∀ b, anfitrion e = some b → b ≠ a ∨ envios (σ'.nodos b).ultima = [] := by
  cases avanza_of_pasoDatos h with
  | @nodo b e s' hno hs' =>
      refine ⟨by simp, ?_⟩
      by_cases hba : b = a
      · subst hba
        obtain ⟨-, hhelado, hnada⟩ := helado_paso hp hs'
        refine ⟨by rwa [tras_nodos_self], fun c hc => Or.inr ?_⟩
        obtain rfl := Option.some.inj hc
        rwa [tras_nodos_self]
      · refine ⟨?_, fun c hc => Or.inl (Option.some.inj hc ▸ hba)⟩
        rw [tras_nodos_of_ne (Ne.symm hba)]
        exact ⟨rfl, fun _ => rfl⟩
  | @entrega d para s' hd hs' =>
      have hba : d.destino ≠ a := by
        rintro rfl
        exact (helado_paso hp hs').1 rfl
      refine ⟨fun d' para' e => ?_, ?_, fun c hc => Or.inl (Option.some.inj hc ▸ hba)⟩
      · injection e with e
        rwa [← e]
      · rw [tras_nodos_of_ne (Ne.symm hba)]
        exact ⟨rfl, fun _ => rfl⟩
  | pierde hd => exact ⟨by simp, ⟨rfl, fun _ => rfl⟩, fun c hc => absurd hc (by simp [anfitrion])⟩

theorem congelada_paso (hp : σ.Parado a) (h : pasoRed σ x = some σ') :
    (∀ d para, x.1 = .entrega d para → d.destino ≠ a) ∧ Congelada a σ σ' := by
  have hlee := (pasoRed_eq_some.mp h).1
  obtain ⟨τ, hτ, e⟩ := Option.map_eq_some_iff.mp hlee
  obtain ⟨hno, hhelado, hnada⟩ := helado_pasoDatos hp hτ
  have hnodos : σ'.nodos = τ.nodos := by rw [← e]
  rw [← hnodos] at hhelado hnada
  exact ⟨hno, hhelado, fun d hd => count_le_of_leyendo hlee hd hnada⟩

theorem congelada_run (hp : σ.Parado a) (hr : run pasoRed σ xs = some σ') :
    (∀ d para lee, (.entrega d para, lee) ∈ xs → d.destino ≠ a) ∧ Congelada a σ σ' := by
  induction xs generalizing σ with
  | nil =>
      obtain rfl : σ = σ' := Option.some.inj hr
      exact ⟨by simp, ⟨rfl, fun _ => rfl⟩, fun _ _ => Nat.le_refl _⟩
  | cons x xs ih =>
      obtain ⟨τ, hs, hr'⟩ := run_cons_eq_some hr
      obtain ⟨hno, hpaso⟩ := congelada_paso hp hs
      obtain ⟨hresto, hfin⟩ := ih ((parado_paso hs a).mpr (Or.inl hp)) hr'
      refine ⟨fun d para lee hd => ?_, hpaso.helado.trans hfin.helado, fun d hd => ?_⟩
      · rcases List.mem_cons.mp hd with rfl | hd
        · exact hno d para rfl
        · exact hresto d para lee hd
      · exact (hfin.envios d hd).trans (hpaso.envios d hd)

section Runs
variable {interfaz : InAddr → String} {numBufPkts : InAddr → UInt16}
  {fuera : InAddr → Int → Conexion} {basura : InAddr → ℕ → BufPkt}

theorem not_parado_inicial :
    ¬(inicial (kernels interfaz numBufPkts fuera basura)).Parado a := Bool.false_ne_true

/-- The semaphore of a host is left locked exactly when a packet without a case has reached it. -/
theorem parada (hr : run pasoRed (inicial (kernels interfaz numBufPkts fuera basura)) xs = some σ)
    (a : InAddr) : σ.Parado a ↔ ∃ x ∈ xs, LlegaSinCaso a x.1 := by
  rw [parado_run hr a, or_iff_right not_parado_inicial]

/-- `saludoDatos`, the listen is let past its barrier, and the packet `d` arrives. -/
def llegada (d : Datagrama) : List Evento :=
  saludoDatos ++ [.nodo 0x0a000002 (.citaDaemon 0), .entrega d none]

def otroEnvio : List Evento := [.nodo 0x0a000001 (.llama (.send entornoVacio 0 (some [8]) 1))]

theorem exists_llegada : ∃ d σ σ',
    run pasoRed (inicial fun _ => kernelPorDefecto) ((llegada d).map intacto) = some σ ∧
      d.destino = 0x0a000002 ∧ d.tpdu.cabecera.tipo = tipoDatos ∧
        run pasoRed σ (otroEnvio.map intacto) = some σ' := by
  have hd : ((run pasoRed (inicial fun _ => kernelPorDefecto) (saludoDatos.map intacto)).bind fun σ =>
      σ.red.head?.bind fun d =>
        (run pasoRed σ ([.nodo 0x0a000002 (.citaDaemon 0), .entrega d none].map intacto)).bind fun σ' =>
          (run pasoRed σ' (otroEnvio.map intacto)).map fun _ =>
            decide (d.destino = 0x0a000002 ∧ d.tpdu.cabecera.tipo = tipoDatos)) = some true := by
    decide +kernel
  obtain ⟨σ, hr, hd⟩ := Option.bind_eq_some_iff.mp hd
  obtain ⟨d, -, hd⟩ := Option.bind_eq_some_iff.mp hd
  obtain ⟨σ', hr', hd⟩ := Option.bind_eq_some_iff.mp hd
  obtain ⟨σ'', hr'', hd⟩ := Option.map_eq_some_iff.mp hd
  obtain ⟨hdest, ht⟩ := of_decide_eq_true hd
  refine ⟨d, σ', σ'', ?_, hdest, ht, hr''⟩
  rw [llegada, List.map_append, run_append, hr]
  exact hr'

theorem llega_llegada {d : Datagrama} (hdest : d.destino = a) (ht : d.tpdu.cabecera.tipo = tipoDatos) :
    ∃ x ∈ (llegada d).map intacto, LlegaSinCaso a x.1 := by
  refine ⟨intacto (.entrega d none), List.mem_map_of_mem (by simp [llegada]), hdest, ?_⟩
  rw [SinCaso, ht]
  decide

theorem parada_saludo : ∃ d σ,
    run pasoRed (inicial fun _ => kernelPorDefecto) ((llegada d).map intacto) = some σ ∧
      σ.Parado 0x0a000002 := by
  obtain ⟨d, σ, -, hr, hdest, ht, -⟩ := exists_llegada
  exact ⟨d, σ, hr, (parada hr 0x0a000002).mpr (llega_llegada hdest ht)⟩

theorem congelada
    (hr : run pasoRed (inicial (kernels interfaz numBufPkts fuera basura)) xs = some σ)
    (hd : ∃ x ∈ xs, LlegaSinCaso a x.1) (hr' : run pasoRed σ xs' = some σ') :
    (∀ d para lee, (.entrega d para, lee) ∈ xs' → d.destino ≠ a) ∧ Congelada a σ σ' :=
  congelada_run ((parado_run hr a).mpr (Or.inr hd)) hr'

/-- The other host goes on, and sends another packet. -/
theorem congelada_saludo : ∃ d σ σ',
    run pasoRed (inicial fun _ => kernelPorDefecto) ((llegada d).map intacto) = some σ ∧
      run pasoRed σ (otroEnvio.map intacto) = some σ' ∧ Congelada 0x0a000002 σ σ' := by
  obtain ⟨d, σ, σ', hr, hdest, ht, hr'⟩ := exists_llegada
  exact ⟨d, σ, σ', hr, hr', (congelada hr (llega_llegada hdest ht) hr').2⟩

end Runs

end Ltm.Red
