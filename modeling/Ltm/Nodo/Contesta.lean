import Ltm.Nodo.Hilos
import Ltm.Kernel.Escuchas

/-! # Answers to connection requests

The daemon handles a CR as it should exactly if it finds a listener for it and `enviar_tpdu` reads the CC
as it was built, in every run of the host.
-/

namespace Ltm.Nodo
open Kernel Runs
set_option autoImplicit false
set_option maxHeartbeats 250000

variable {s s' : Estado}

/-- A step with what `enviar_tpdu` reads in it; the host does not depend on that. -/
def pasoLeido (s : Estado) (x : Suceso × Lectura) : Option Estado := paso s x.1

/-- A step that receives a CR answers it, as far as it is sure to go. -/
def Contesta (s : Estado) (x : Suceso × Lectura) (s' : Estado) : Prop :=
  match x.1 with
  | .recibe ipRemota p _ => p.cabecera.tipo = tipoCR →
      AtiendeCR s.kernel ipRemota p x.2 s'.kernel (hastaFuera s'.ultima)
  | _ => True

/-- Some cell matches the CR that is received, and the CC is read as it was built. -/
def Contestable (k : KernelShm) (x : Suceso × Lectura) : Prop :=
  match x.1 with
  | .recibe ipRemota p _ => p.cabecera.tipo = tipoCR →
      (∃ i, EnTabla i ∧ encaja (k.CXs i) p.cabecera) ∧
        FielCC (k.bufferCC ipRemota p).pkt (x.2 0 (k.bufferCC ipRemota p).pkt)
  | _ => True

theorem recibe_cr {ipRemota : InAddr} {p : Tpdu} {para : Option ℕ} (ht : p.cabecera.tipo = tipoCR)
    (h : paso s (.recibe ipRemota p para) = some s') :
    s'.kernel = s.kernel.trasCR ipRemota p ∧ s'.ultima = trazaCR s.kernel ipRemota p := by
  cases transita_recibe h with
  | recibe hs hd he =>
      cases he with
      | cc hcc => exact absurd hcc (tipoCR_ne_tipoCC ht)
      | cr => exact ⟨rfl, rfl⟩
      | otro _ hcr => exact absurd ht hcr

theorem contesta_iff_contestable {x : Suceso × Lectura} (h : pasoLeido s x = some s') :
    Contesta s x s' ↔ Contestable s.kernel x := by
  obtain ⟨e, lee⟩ := x
  cases e with
  | recibe ipRemota p para =>
      refine forall_congr' fun ht => ?_
      obtain ⟨hk, hw⟩ := recibe_cr ht h
      rw [hk, hw]
      exact atiendeCR_iff
  | _ => exact iff_of_true trivial trivial

/-- In every run each CR is answered as it should be exactly as long as each finds a listener and each CC
is read as it was built. -/
theorem contesta_iff {interfaz : String} {numBufPkts : UInt16} {fuera : Int → Conexion}
    {basura : ℕ → BufPkt} (xs : List (Suceso × Lectura)) :
    Along pasoLeido Contesta (inicial (kernelInicial interfaz numBufPkts fuera basura)) xs ↔
      Along pasoLeido (fun s x _ => Contestable s.kernel x)
        (inicial (kernelInicial interfaz numBufPkts fuera basura)) xs :=
  along_iff_along (fun _ => True) (fun s x _ => Contestable s.kernel x) (fun _ _ _ _ _ _ => trivial)
    (fun _ _ _ _ h => contesta_iff_contestable h) xs trivial

/-- A CR reaches a host where nobody listens. -/
theorem no_contesta : ¬Along pasoLeido Contesta (inicial kernelPorDefecto)
    [(.recibe 0x0a000002 crDesde1000 none, fun _ p => p)] := by
  have hs : ∃ s', pasoLeido (inicial kernelPorDefecto)
      (.recibe 0x0a000002 crDesde1000 none, fun _ p => p) = some s' ∧
        celdas (hastaFuera s'.ultima) = [exNoTsap] ∧
        ∀ i, EnTabla i → ¬encaja (kernelPorDefecto.CXs i) crDesde1000.cabecera := by
    refine ⟨_, rfl, by decide +kernel, fun i hi => ?_⟩
    exact asignConexionCR_eq_exNoTsap_iff.mp (by decide +kernel) i hi
  obtain ⟨s', hs, hcelda, hno⟩ := hs
  intro h
  have hcr := ((Along.cons_of_some hs).mp h).1 rfl
  rw [(hcr.nada hno).2.1] at hcelda
  exact absurd hcelda (by simp)

end Ltm.Nodo
