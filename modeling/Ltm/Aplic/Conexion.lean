import Ltm.Aplic.Principal
import Ltm.Red.Valores

/-! # What `aplic` says of its call

Of the thirteen results that `aplic` has a text for, its call has five in the network: cell `0`, and the
errors of the tests of `t_connect` and `t_listen`. For any other cell it says nothing (`dice`).
-/

namespace Ltm.Aplic
open CommandLine Kernel Nodo Red Runs
set_option autoImplicit false
set_option maxHeartbeats 250000

/-- The results that `aplic` has a text for, of those that its call can have. -/
def conTexto : List Int := 0 :: erroresPrueba

theorem mensaje_of_enTabla {v : Int} (h : EnTabla v) (hv : v ≠ 0) : mensaje v = none := by
  have htodas : ∀ n < 8, ((n : ℕ) : Int) ≠ 0 → mensaje (n : ℕ) = none := by decide
  obtain ⟨n, hn, rfl⟩ := enTabla_iff.mp h
  exact htodas n hn hv

theorem mensaje_of_error {v : Int} (h : v ∈ erroresPrueba) : (mensaje v).isSome = true := by
  have htodos : ∀ v ∈ erroresPrueba, (mensaje v).isSome = true := by decide
  exact htodos v h

theorem abre_aplic (e : Entorno) (argv : List Word) : (aplic e argv).abre := by
  unfold aplic
  dsimp only
  split <;> trivial

theorem mensaje_of_valor {v : Int} (h : Valor v) :
    (mensaje v).isSome = true ∧ v ∈ conTexto ∨ mensaje v = none ∧ EnTabla v ∧ v ≠ 0 := by
  rcases h with hen | herr
  · by_cases hv : v = 0
    · subst hv
      exact Or.inl ⟨rfl, List.mem_cons_self⟩
    · exact Or.inr ⟨mensaje_of_enTabla hen hv, hen, hv⟩
  · exact Or.inl ⟨mensaje_of_error herr, List.mem_cons_of_mem _ herr⟩

variable {interfaz : InAddr → String} {numBufPkts : InAddr → UInt16}
  {fuera : InAddr → Int → Conexion} {basura : InAddr → ℕ → BufPkt} {xs : List (Red.Evento × Lectura)}
  {σ : Sistema} {a : InAddr}

theorem dice (h : Alcanza (inicial (kernels interfaz numBufPkts fuera basura)) xs σ) {hilo : Hilo}
    (hh : hilo ∈ (σ.nodos a).hilos) {e : Entorno} {argv : List Word}
    (hl : hilo.ficha.llamada = aplic e argv) : ∀ v, hilo.fase = .fin v →
      (mensaje v).isSome = true ∧ v ∈ conTexto ∨ mensaje v = none ∧ EnTabla v ∧ v ≠ 0 :=
  fun _ hf => mensaje_of_valor ((valores_run h).valor hh (hl ▸ abre_aplic e argv) hf)

def argvServidor : List Word := [['-', 's', 'p'], ['8', '0']]

/-- `aplic -sp 80` on the host `10.0.0.2`. -/
def servidor : Llamada := aplic ⟨0, 0, some [⟨"eth0", some (afInet, 0x0a000002)⟩], []⟩ argvServidor

/-- Where a `t_listen` listens, and for whom. -/
def oyeDe : Llamada → Option (TDireccion × Option TDireccion)
  | .listen _ escucha remota => some (escucha, remota)
  | _ => none

theorem eq_aplic_of_oyeDe {c : Llamada} (h : oyeDe c = some (⟨0, 80⟩, some ⟨0, 0⟩)) :
    ∃ e, c = aplic e argvServidor := by
  cases c with
  | listen e escucha remota =>
      obtain ⟨rfl, rfl⟩ := Prod.mk.inj (Option.some.inj h)
      exact ⟨e, rfl⟩
  | connect | send => cases h

/-- The server is connected to, and its call returns. -/
def atendido : List Red.Evento :=
  [.nodo 0x0a000002 (.llama servidor), .nodo 0x0a000001 (.llama (conecta 80 1000)),
    .entrega (datagramaCR 0x0a000001 kernelPorDefecto ⟨0x0a000002, 80⟩ ⟨0x0a000001, 1000⟩) none,
    .nodo 0x0a000002 (.citaDaemon 0), .nodo 0x0a000002 (.sigue 0)]

theorem dice_atendido : ∃ σ, Alcanza (inicial fun _ => kernelPorDefecto) (atendido.map intacto) σ ∧
    ∃ hilo ∈ (σ.nodos 0x0a000002).hilos, hilo.fase = .fin 0 ∧
      ∀ v, hilo.fase = .fin v →
        (mensaje v).isSome = true ∧ v ∈ conTexto ∨ mensaje v = none ∧ EnTabla v ∧ v ≠ 0 := by
  have hfin : (run pasoRed (inicial fun _ => kernelPorDefecto) (atendido.map intacto)).map (fun σ =>
      decide (∃ hilo ∈ (σ.nodos 0x0a000002).hilos, hilo.fase = .fin 0 ∧
        oyeDe hilo.ficha.llamada = some (⟨0, 80⟩, some ⟨0, 0⟩))) = some true := by decide +kernel
  obtain ⟨σ, hr, hfin⟩ := Option.map_eq_some_iff.mp hfin
  obtain ⟨hilo, hh, hf, hoye⟩ := of_decide_eq_true hfin
  obtain ⟨e, hl⟩ := eq_aplic_of_oyeDe hoye
  have h := alcanza_intacto hr
  exact ⟨σ, h, hilo, hh, hf, dice h hh hl⟩

end Ltm.Aplic
