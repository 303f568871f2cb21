import Ltm.Foundations.Runs
import Ltm.Kernel.Seccion

/-! # The semaphore and the cells in a trace

`Accion.semaforo` follows a process through its trace and knows whether it holds `SEMAFORO`: it stops
at an acquire of the semaphore held, at a release of it not held, and at a wait (on a barrier, or in
`ltm_wait4event`) with it held. `Disciplina` is a trace that it follows to the end, from free to free.
`hastaFuera` is the part of a trace that the code is sure to go through, and `leidos` what it puts on the
network, given what `enviar_tpdu` reads.
-/

namespace Ltm.Kernel
open Runs
set_option autoImplicit false
set_option maxHeartbeats 250000

def Accion.semaforo : Bool → Accion → Option Bool
  | false, .bloquearAcceso => some true
  | true, .bloquearAcceso => none
  | true, .desbloquearAcceso => some false
  | false, .desbloquearAcceso => none
  | true, .barrera _ => none
  | true, .ltmWait4event => none
  | tomado, _ => some tomado

def Disciplina (w : List Accion) : Prop := run Accion.semaforo false w = some false

instance (w : List Accion) : Decidable (Disciplina w) := inferInstanceAs (Decidable (_ = _))

def Accion.celda : Accion → Option Int
  | .acceso i => some i
  | .barrera i => some i
  | _ => none

def Accion.espera : Accion → Option Int
  | .barrera i => some i
  | _ => none

def Accion.envio : Accion → Option (InAddr × Tpdu)
  | .enviarTpdu ip pkt => some (ip, pkt)
  | _ => none

/-- The cells that the trace reads, writes or waits at. -/
def celdas (w : List Accion) : List Int := w.filterMap Accion.celda

/-- The cells at whose barrier the trace waits. -/
def esperas (w : List Accion) : List Int := w.filterMap Accion.espera

/-- The packets that `enviar_tpdu` is given in the trace. -/
def envios (w : List Accion) : List (InAddr × Tpdu) := w.filterMap Accion.envio

def SoloCelda (i : Int) (w : List Accion) : Prop := ∀ a ∈ w, ∀ j ∈ a.celda, j = i

def AccesosEnTabla (w : List Accion) : Prop := ∀ a ∈ w, ∀ i ∈ a.celda, EnTabla i

instance (w : List Accion) : Decidable (AccesosEnTabla w) := inferInstanceAs (Decidable (∀ _ ∈ _, _))

/-- All accesses are in the table, and nothing is taken from an empty list. -/
structure Definida (w : List Accion) : Prop where
  accesos : AccesosEnTabla w
  listas : .listaVacia ∉ w

instance (w : List Accion) : Decidable (Definida w) :=
  decidable_of_iff (AccesosEnTabla w ∧ .listaVacia ∉ w) ⟨fun h => ⟨h.1, h.2⟩, fun h => ⟨h.1, h.2⟩⟩

/-- The trace up to its first access outside the table, which is the last thing that is sure to happen:
the write to `CXs[EXNOTSAP]` is in front of the segment and kills the daemon. -/
def hastaFuera : List Accion → List Accion
  | [] => []
  | a :: w => if ∀ i ∈ a.celda, EnTabla i then a :: hastaFuera w else [a]

/-- The cell that `bucle_principal` takes for the packet is in the table. -/
def Tpdu.Dentro (p : Tpdu) (k : KernelShm) : Prop :=
  (p.cabecera.tipo = tipoCC → EnTabla p.cabecera.idDestino) ∧
    (p.cabecera.tipo = tipoCR → asignConexionCR p k ≠ exNoTsap)

instance (p : Tpdu) (k : KernelShm) : Decidable (p.Dentro k) :=
  inferInstanceAs (Decidable ((_ → _) ∧ (_ → _)))

/-- What `enviar_tpdu` reads: the `n`-th packet of a section that the code has built as `p` is `lee n p`
by then. -/
abbrev Lectura := ℕ → Tpdu → Tpdu

/-- The packets that the section puts on the network. -/
def leidos (lee : Lectura) (w : List Accion) : List (InAddr × Tpdu) :=
  (envios w).mapIdx fun n p => (p.1, lee n p.2)

/-- Every packet of the section that `enviar_tpdu` reads is still the one built. -/
def Intacta (lee : Lectura) (w : List Accion) : Prop :=
  ∀ n, ∀ p ∈ (envios w)[n]?, lee n p.2 = p.2

variable {i : Int} {w w' : List Accion}

theorem Disciplina.append (h : Disciplina w) (h' : Disciplina w') : Disciplina (w ++ w') := by
  unfold Disciplina at h h' ⊢
  rw [run_append, h]
  exact h'

theorem soloCelda_nil (i : Int) : SoloCelda i [] := by
  simp [SoloCelda]

theorem SoloCelda.accesos (h : SoloCelda i w) (hi : EnTabla i) : AccesosEnTabla w := by
  intro a ha j hj
  rw [h a ha j hj]
  exact hi

theorem definida_nil : Definida [] := ⟨fun _ ha => absurd ha List.not_mem_nil, List.not_mem_nil⟩

theorem SoloCelda.definida (h : SoloCelda i w) (hi : EnTabla i) (hno : .listaVacia ∉ w) : Definida w :=
  ⟨h.accesos hi, hno⟩

theorem envios_append (w w' : List Accion) : envios (w ++ w') = envios w ++ envios w' :=
  List.filterMap_append

theorem leidos_of_intacta {lee : Lectura} (h : Intacta lee w) : leidos lee w = envios w := by
  refine List.ext_getElem? fun n => ?_
  rw [leidos, List.getElem?_mapIdx]
  cases hp : (envios w)[n]? with
  | none => rfl
  | some p =>
      rw [Option.map_some, h n p hp]

theorem intacta_id (w : List Accion) : Intacta (fun _ p => p) w := fun _ _ _ => rfl

/-! ## Accesses outside the table -/

theorem hastaFuera_prefix (w : List Accion) : hastaFuera w <+: w := by
  induction w with
  | nil => exact List.prefix_rfl
  | cons a w ih =>
      rw [hastaFuera]
      by_cases ha : ∀ i ∈ a.celda, EnTabla i
      · rw [if_pos ha]
        exact (List.prefix_cons_inj a).mpr ih
      · rw [if_neg ha]
        exact ⟨w, rfl⟩

theorem hastaFuera_of_accesos (h : AccesosEnTabla w) : hastaFuera w = w := by
  induction w with
  | nil => rfl
  | cons a w ih =>
      rw [hastaFuera, if_pos (h a List.mem_cons_self),
        ih fun b hb => h b (List.mem_cons_of_mem a hb)]

theorem AccesosEnTabla.append (h : AccesosEnTabla w) (h' : AccesosEnTabla w') :
    AccesosEnTabla (w ++ w') := fun a ha => (List.mem_append.mp ha).elim (h a) (h' a)

theorem soloCelda_append : SoloCelda i (w ++ w') ↔ SoloCelda i w ∧ SoloCelda i w' := by
  simp only [SoloCelda, List.mem_append]
  exact ⟨fun h => ⟨fun a ha => h a (Or.inl ha), fun a ha => h a (Or.inr ha)⟩,
    fun h a ha => ha.elim (h.1 a) (h.2 a)⟩

end Ltm.Kernel
