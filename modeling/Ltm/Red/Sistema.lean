import Ltm.Nodo.Capacidad
import Ltm.Nodo.Resultado

/-! # Hosts and a network

Several hosts, each a `Nodo.Estado` under its IP address, and the datagrams in flight between them. A
step is a step of one host, the delivery of a datagram to the daemon of the host it is addressed to, or
the loss of one. What a step sends is in the trace it leaves.
-/

namespace Ltm.Red
open Kernel Nodo
set_option autoImplicit false
set_option maxHeartbeats 250000

structure Datagrama where
  origen : InAddr
  destino : InAddr
  tpdu : Tpdu
  deriving DecidableEq, Repr

structure Sistema where
  nodos : InAddr → Estado
  red : List Datagrama

inductive Evento
  /-- a step of the host `a` that takes nothing from the network -/
  | nodo (a : InAddr) (e : Suceso)
  /-- the daemon of the host it is addressed to receives the datagram -/
  | entrega (d : Datagrama) (para : Option ℕ)
  | pierde (d : Datagrama)

def interno : Suceso → Bool
  | .llama (.send _ _ _ _) => false
  | .recibe _ _ _ => false
  | _ => true

/-- The system once the host `a` has come to the state `s'`, the datagrams `red` still in flight. -/
def Sistema.tras (σ : Sistema) (a : InAddr) (red : List Datagrama) (s' : Estado) : Sistema where
  nodos := Function.update σ.nodos a s'
  red := red ++ (envios s'.ultima).map fun p => ⟨a, p.1, p.2⟩

def paso (σ : Sistema) : Evento → Option Sistema
  | .nodo a e => if interno e then (Nodo.paso (σ.nodos a) e).map (σ.tras a σ.red) else none
  | .entrega d para =>
    if d ∈ σ.red then
      (Nodo.paso (σ.nodos d.destino) (.recibe d.origen d.tpdu para)).map
        (σ.tras d.destino (σ.red.erase d))
    else none
  | .pierde d => if d ∈ σ.red then some { σ with red := σ.red.erase d } else none

/-- Hosts whose daemons have just entered their loops, and an empty network. -/
def inicial (k : InAddr → KernelShm) : Sistema := ⟨fun a => Nodo.inicial (k a), []⟩

/-! ## Who opened a cell -/

/-- The call that took the cell `i` last. -/
def abierta (s : Estado) (i : Int) : Option Llamada :=
  (s.dueno i).bind fun h => (s.ficha h).map Ficha.llamada

def esConnect : Llamada → Bool
  | .connect _ _ _ => true
  | _ => false

def esListen : Llamada → Bool
  | .listen _ _ _ => true
  | _ => false

def AbiertaConnect (s : Estado) (i : Int) : Prop := ∃ c ∈ abierta s i, esConnect c = true

instance (s : Estado) (i : Int) : Decidable (AbiertaConnect s i) :=
  inferInstanceAs (Decidable (∃ _ ∈ _, _))

def AbiertaListen (s : Estado) (i : Int) : Prop := ∃ c ∈ abierta s i, esListen c = true

theorem not_abiertaListen {s : Estado} {i : Int} (h : AbiertaConnect s i) : ¬AbiertaListen s i := by
  obtain ⟨c, hc, hcon⟩ := h
  rintro ⟨c', hc', hlis⟩
  obtain rfl := Option.some.inj (hc.symm.trans hc')
  cases c with
  | connect => exact absurd hlis (by simp [esListen])
  | listen => exact absurd hcon (by simp [esConnect])
  | send => exact absurd hcon (by simp [esConnect])

/-! ## Steps of a host -/

/-- A step of a host that takes nothing from the network: it leaves the table and sends nothing, or a
call takes a free cell. -/
inductive Interno (s s' : Estado) : Prop
  | quieto (hk : s'.kernel.CXs = s.kernel.CXs) (hab : ∀ i, AbiertaListen s i → AbiertaListen s' i)
      (hu : envios s'.ultima = [])
  | connect {pid : Int} {destino origen : TDireccion}
      (hlibre : ¬s.kernel.ocupada (buscarCeldaLibre s.kernel))
      (hk : s'.kernel = s.kernel.trasConnect pid destino origen)
      (hab : ∀ i, i ≠ buscarCeldaLibre s.kernel → AbiertaListen s i → AbiertaListen s' i)
      (hu : s'.ultima = trazaConnect s.kernel destino origen)
  | listen {pid : Int} {escucha : TDireccion} {remota : Option TDireccion}
      (hlibre : ¬s.kernel.ocupada (buscarCeldaLibre s.kernel))
      (hk : s'.kernel = s.kernel.trasListen pid escucha remota)
      (hab : ∀ i, i ≠ buscarCeldaLibre s.kernel → AbiertaListen s i → AbiertaListen s' i)
      (hself : AbiertaListen s' (buscarCeldaLibre s.kernel)) (hu : envios s'.ultima = [])

variable {s s' : Estado}

theorem abiertaListen_of (i : Int) (hd : s'.dueno i = s.dueno i)
    (hf : ∀ h f, s.ficha h = some f → ∃ f', s'.ficha h = some f' ∧ f'.llamada = f.llamada)
    (h : AbiertaListen s i) : AbiertaListen s' i := by
  obtain ⟨c, hc, hlis⟩ := h
  obtain ⟨j, hj, hc⟩ := Option.bind_eq_some_iff.mp hc
  obtain ⟨f, hfj, hl⟩ := Option.map_eq_some_iff.mp hc
  obtain ⟨f', hfj', hl'⟩ := hf j f hfj
  refine ⟨c, ?_, hlis⟩
  rw [Option.mem_def, abierta, hd, hj, Option.bind_some, hfj', Option.map_some, hl', hl]

/-- Every call that waits has a cell: it is not a `t_send`. -/
def SinEnvios (s : Estado) : Prop := ∀ h l, s.pendiente h = some l → ∃ i, celdaDe l = some i

theorem celdaDe_empieza {k k' : KernelShm} {c : Llamada} {i : Int} {l : Local} {w : List Accion}
    (he : Empieza k c (.duerme i l) k' w) (hno : ∀ e id datos longitud, c ≠ .send e id datos longitud) :
    ∃ i, celdaDe l = some i := by
  cases he with
  | connect => exact ⟨_, rfl⟩
  | listen => exact ⟨_, rfl⟩
  | send e id datos longitud => exact absurd rfl (hno e id (some datos) longitud)

theorem sinEnvios_transita {e : Suceso} (hi : SinEnvios s)
    (hno : ∀ en id datos longitud, e ≠ .llama (.send en id datos longitud)) (h : Transita s e s') :
    SinEnvios s' := by
  cases h with
  | termina hs he =>
      intro h l hl
      rcases (pendiente_concat rfl).mp hl with hl | ⟨-, hl⟩
      · exact hi h l hl
      · exact absurd hl (by simp [hiloTerminado, Fase.pendiente])
  | @empieza c i l k' w hs he =>
      intro h l' hl
      rcases (pendiente_concat rfl).mp hl with hl | ⟨-, hl⟩
      · exact hi h l' hl
      · obtain rfl := Option.some.inj hl
        refine celdaDe_empieza he ?_
        rintro en id datos longitud rfl
        exact hno en id datos longitud rfl
  | acaba hs hh hf he =>
      intro h l hl
      rcases (pendiente_set hh rfl).mp hl with ⟨-, hl⟩ | ⟨-, hl⟩
      · exact absurd hl (by simp [Hilo.acabado, Fase.pendiente])
      · exact hi h l hl
  | @vuelve h hilo l l' i k' w hs hh hf he =>
      obtain ⟨j, hj⟩ := hi h l (by rw [pendiente_of_hilo hh, hf]; rfl)
      obtain ⟨v, e⟩ := (sigue_CXs hj he).2
      exact absurd e (by simp)
  | recibe hs hd he =>
      intro h l hl
      rw [pendiente_trasRecibir] at hl
      exact hi h l hl
  | citaDaemon hh hf hd =>
      intro h l hl
      exact hi h l ((pendiente_despertado hh hf h).symm.trans hl)
  | cita hne hh hf hh' hf' =>
      intro h l hl
      exact hi h l ((pendiente_cita hne hh hf hh' hf' h).symm.trans hl)
  | despierta hh hf =>
      intro h l hl
      exact hi h l ((pendiente_despertado hh hf h).symm.trans hl)
  | suelta hd => exact hi

theorem envios_empieza_retorna {k k' : KernelShm} {c : Llamada} {v : Int} {w : List Accion}
    (he : Empieza k c (.retorna v) k' w) (hno : ∀ e id datos longitud, c ≠ .send e id datos longitud) :
    envios w = [] := by
  rcases (he.quieta hno).2.2 with rfl | rfl <;> rfl

theorem envios_sigue {k k' : KernelShm} {i : Int} {l : Local} {pa : Paso} {w : List Accion}
    (hl : celdaDe l = some i) (he : Sigue k l pa k' w) : envios w = [] := by
  cases he with
  | connect => rfl
  | listen => rfl
  | send => exact absurd hl (by simp [celdaDe])

theorem ficha_mono_concat {hilo : Hilo} (hs : s'.hilos = s.hilos ++ [hilo]) (h : ℕ) (f : Ficha)
    (hf : s.ficha h = some f) : ∃ f', s'.ficha h = some f' ∧ f'.llamada = f.llamada :=
  ⟨f, (ficha_concat hs).mpr (Or.inl hf), rfl⟩

theorem ficha_mono_set {h : ℕ} {hilo hilo' : Hilo} (hh : s.hilos[h]? = some hilo)
    (hs : s'.hilos = s.hilos.set h hilo') (he : hilo'.ficha.llamada = hilo.ficha.llamada) (j : ℕ)
    (f : Ficha) (hf : s.ficha j = some f) : ∃ f', s'.ficha j = some f' ∧ f'.llamada = f.llamada := by
  by_cases hj : j = h
  · subst hj
    obtain rfl := Option.some.inj ((ficha_of_hilo hh).symm.trans hf)
    exact ⟨_, (ficha_set hh hs).mpr (Or.inl ⟨rfl, rfl⟩), he⟩
  · exact ⟨f, (ficha_set hh hs).mpr (Or.inr ⟨hj, hf⟩), rfl⟩

theorem ficha_mono_of_eq (hf : ∀ h, s'.ficha h = s.ficha h) (h : ℕ) (f : Ficha)
    (hfh : s.ficha h = some f) : ∃ f', s'.ficha h = some f' ∧ f'.llamada = f.llamada :=
  ⟨f, (hf h).trans hfh, rfl⟩

theorem abierta_nueva {c : Llamada} {i j : Int} {l : Local} {k' : KernelShm}
    (hs : s'.hilos = s.hilos ++ [hiloNuevo c j l k'])
    (hd : s'.dueno = Function.update s.dueno i (some s.hilos.length)) : abierta s' i = some c := by
  have hf : s'.ficha s.hilos.length = some (hiloNuevo c j l k').ficha :=
    (ficha_concat hs).mpr (Or.inr ⟨rfl, rfl⟩)
  rw [abierta, hd, Function.update_self, Option.bind_some, hf]
  rfl

theorem interno_transita {e : Suceso} (hc : Cuadra s) (hi : SinEnvios s) (he : interno e = true)
    (h : Transita s e s') : Interno s s' := by
  cases h with
  | @termina c v k' w hs hem =>
      have hno : ∀ en id datos longitud, c ≠ .send en id datos longitud := by
        rintro en id datos longitud rfl
        exact absurd he (by simp [interno])
      exact .quieto (empieza_retorna_CXs hem hno)
        (fun i => abiertaListen_of i rfl (ficha_mono_concat rfl)) (envios_empieza_retorna hem hno)
  | @empieza c i l k' w hs hem =>
      cases hem with
      | connect en destino origen origen' hker hpar hn hrep =>
          refine .connect (hc.celda_libre hn) rfl (fun j hj => ?_) rfl
          exact abiertaListen_of j (Function.update_of_ne hj _ _) (ficha_mono_concat rfl)
      | listen en escucha escucha' remota hker hpar hn hrep =>
          refine .listen (hc.celda_libre hn) rfl (fun j hj => ?_) ⟨_, abierta_nueva rfl rfl, rfl⟩ rfl
          exact abiertaListen_of j (Function.update_of_ne hj _ _) (ficha_mono_concat rfl)
      | send => exact absurd he (by simp [interno])
  | @acaba h hilo l v k' w hs hh hf hsig =>
      obtain ⟨j, hj⟩ := hi h l (by rw [pendiente_of_hilo hh, hf]; rfl)
      exact .quieto (sigue_CXs hj hsig).1
        (fun i => abiertaListen_of i rfl (ficha_mono_set hh rfl rfl)) (envios_sigue hj hsig)
  | @vuelve h hilo l l' i k' w hs hh hf hsig =>
      obtain ⟨j, hj⟩ := hi h l (by rw [pendiente_of_hilo hh, hf]; rfl)
      obtain ⟨v, e⟩ := (sigue_CXs hj hsig).2
      exact absurd e (by simp)
  | recibe hs hd hrec => exact absurd he (by simp [interno])
  | citaDaemon hh hf hd =>
      exact .quieto rfl (fun i => abiertaListen_of i rfl (ficha_mono_of_eq (ficha_despertado hh))) rfl
  | cita hne hh hf hh' hf' =>
      exact .quieto rfl (fun i => abiertaListen_of i rfl (ficha_mono_of_eq (ficha_cita hne hh hh'))) rfl
  | despierta hh hf =>
      exact .quieto rfl (fun i => abiertaListen_of i rfl (ficha_mono_of_eq (ficha_despertado hh))) rfl
  | suelta hd => exact .quieto rfl (fun _ => id) rfl

end Ltm.Red
