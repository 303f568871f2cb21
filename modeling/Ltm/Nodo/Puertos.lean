import Ltm.Nodo.Capacidad
import Ltm.Kernel.Repetidos

/-! # Local ports and repeated addresses

A call whose local port is that of an occupied cell fails, unless the port is negative: then no cell is
found, and two occupied cells get the same port. A call that finds the addresses of a free cell fails
too, with the error for a repetition.
-/

namespace Ltm.Nodo
open Kernel Runs
set_option autoImplicit false
set_option maxHeartbeats 250000

variable {s s' : Estado} {k k' : KernelShm} {c : Llamada}

/-! ## No false repetition -/

/-- The cell has an address of the call in use: the local port, or the remote address of a connect. -/
def Choca (c : Conexion) (o : TDireccion) : Llamada → Prop
  | .connect _ destino _ =>
    c.ipDestino = destino.ip ∧ c.puertoDestino = destino.puerto.toUInt16 ∨
      c.puertoOrigen = o.puerto.toUInt16
  | _ => c.puertoOrigen = o.puerto.toUInt16

/-- `EXCDUP` is returned only if an occupied cell has an address of the call. -/
def DupVeraz (s : Estado) (e : Suceso) (s' : Estado) : Prop :=
  match e with
  | .llama c => c.abre → Retorna s s' exCDup → ∃ i o, EnTabla i ∧ s.kernel.ocupada i ∧
      c.origen s.kernel = some o ∧ Choca (s.kernel.CXs i) o c
  | _ => True

/-- A call that reaches its search finds no free cell with its addresses, unless an occupied cell has
one of them too. -/
def SinRestos (s : Estado) : Suceso → Prop
  | .llama c => ∀ o, c.origen s.kernel = some o → s.kernel.numCXs ≠ numMaxCXs →
      (∃ j, EnTabla j ∧ ¬s.kernel.ocupada j ∧ (s.kernel.CXs j).repite o c) →
        ∃ i, EnTabla i ∧ s.kernel.ocupada i ∧ Choca (s.kernel.CXs i) o c
  | _ => True

theorem choca_of_repite {cx : Conexion} {o : TDireccion} (h : cx.repite o c) : Choca cx o c := by
  rcases h with h | h
  · cases c with
    | connect e destino origen => exact Or.inl ⟨h.1, (mismoPuerto_iff.mp h.2).1⟩
    | listen => exact absurd h id
    | send => exact absurd h id
  · have hp := (mismoPuerto_iff.mp h).1
    cases c with
    | connect e destino origen => exact Or.inr hp
    | listen => exact hp
    | send => exact hp

theorem retorna_exCDup_iff {o : TDireccion} (ho : c.origen k = some o) :
    (c.empieza ⟨k, []⟩).1 = .retorna exCDup ↔
      k.numCXs ≠ numMaxCXs ∧ ∃ i, EnTabla i ∧ (k.CXs i).repite o c := by
  cases critica_of_origen ho with
  | lleno hn hr =>
      rw [hr]
      exact iff_of_false (by simp) fun h => h.1 hn
  | repetida hn hrep hr => exact iff_of_true hr ⟨hn, hrep⟩
  | toma hn hrep hr =>
      obtain ⟨i, l, hr⟩ := hr
      rw [hr]
      exact iff_of_false (by simp) fun h => hrep h.2

theorem origen_of_exCDup (habre : c.abre) (h : (c.empieza ⟨k, []⟩).1 = .retorna exCDup) :
    ∃ o, c.origen k = some o := by
  cases ho : c.origen k with
  | some o => exact ⟨o, rfl⟩
  | none =>
      rcases (fuera_of_origen ho habre).2 with hr | ⟨v, hr, hv⟩
      · rw [hr] at h
        exact absurd h (by simp)
      · rw [hr] at h
        obtain rfl := Paso.retorna.inj h
        rcases hv with hv | hv <;> exact absurd hv (by decide)

theorem abre_of_origen {o : TDireccion} (ho : c.origen k = some o) : c.abre := by
  cases c with
  | send => exact absurd ho (by simp [Llamada.origen])
  | connect => trivial
  | listen => trivial

theorem dupVeraz_iff_sinRestos {e : Suceso} (h : paso s e = some s') :
    DupVeraz s e s' ↔ SinRestos s e := by
  cases e with
  | llama c =>
      have hret := (paso_llama h).2.2 exCDup
      constructor
      · rintro hdup o ho hn ⟨j, hj, -, hrep⟩
        have hr := (retorna_exCDup_iff ho).mpr ⟨hn, j, hj, hrep⟩
        obtain ⟨i, o', hi, hocu, ho', hch⟩ := hdup (abre_of_origen ho) (hret.mpr hr)
        obtain rfl := Option.some.inj (ho.symm.trans ho')
        exact ⟨i, hi, hocu, hch⟩
      · intro hsin habre hr
        have hr' := hret.mp hr
        obtain ⟨o, ho⟩ := origen_of_exCDup habre hr'
        obtain ⟨hn, j, hj, hrep⟩ := (retorna_exCDup_iff ho).mp hr'
        by_cases hocu : s.kernel.ocupada j
        · exact ⟨j, o, hj, hocu, ho, choca_of_repite hrep⟩
        · obtain ⟨i, hi, hocu', hch⟩ := hsin o ho hn ⟨j, hj, hocu, hrep⟩
          exact ⟨i, o, hi, hocu', ho, hch⟩
  | _ => exact iff_of_true trivial trivial

/-- In every run `EXCDUP` is returned only for a collision with an occupied cell exactly as long as every
call that matches a free cell collides with an occupied one too. -/
theorem dupVeraz_iff {interfaz : String} {numBufPkts : UInt16} {fuera : Int → Conexion}
    {basura : ℕ → BufPkt} (es : List Suceso) :
    Along paso DupVeraz (inicial (kernelInicial interfaz numBufPkts fuera basura)) es ↔
      Along paso (fun s e _ => SinRestos s e)
        (inicial (kernelInicial interfaz numBufPkts fuera basura)) es :=
  along_iff_along (fun _ => True) (fun s e _ => SinRestos s e) (fun _ _ _ _ _ _ => trivial)
    (fun _ _ _ _ h => dupVeraz_iff_sinRestos h) es trivial

/-- A connect is refused and returns; the same connect again is taken for a repetition, with no cell
occupied. -/
theorem no_dupVeraz :
    ¬Along paso DupVeraz (inicial kernelPorDefecto) (rechazado 0 ++ [.llama (conecta 80 1000)]) := by
  have hrun : ((run paso (inicial kernelPorDefecto) (rechazado 0)).bind fun s =>
      (paso s (.llama (conecta 80 1000))).map fun s' =>
        (decide (Retorna s s' exCDup), s.kernel.ocupadas)) = some (true, ∅) := by decide +kernel
  obtain ⟨s, hr, hs'⟩ := Option.bind_eq_some_iff.mp hrun
  obtain ⟨s', hs, hval⟩ := Option.map_eq_some_iff.mp hs'
  obtain ⟨hret, hocu⟩ := Prod.mk.inj hval
  intro h
  obtain ⟨i, -, hi, hi', -⟩ := h.last hr hs trivial (of_decide_eq_true hret)
  obtain ⟨n, hn, rfl⟩ := enTabla_iff.mp hi
  have hmem : n ∈ s.kernel.ocupadas := mem_ocupadas.mpr ⟨hn, hi'⟩
  rw [hocu] at hmem
  exact absurd hmem (Finset.notMem_empty n)

/-! ## Local ports -/

/-- After the step the ports of the occupied cells are distinct, and a call in the step whose port is in
use has failed and changed no cell, with `EXCDUP` unless another error came first. -/
structure PuertosUnicos (s : Estado) (e : Suceso) (s' : Estado) : Prop where
  unicos : Unicos s'.kernel
  enUso : ∀ c o, e = .llama c → c.origen s.kernel = some o → EnUso s.kernel o →
    Retorna s s' (if s.kernel.numCXs = numMaxCXs then exMaxC else exCDup) ∧
      s'.kernel.CXs = s.kernel.CXs
  fuera : ∀ c, e = .llama c → c.abre → c.origen s.kernel = none →
    (Retorna s s' exKernel ∨ Retorna s s' exInva) ∧ s'.kernel.CXs = s.kernel.CXs

def PuertoVisible (s : Estado) : Suceso → Prop
  | .llama c => c.visible s.kernel
  | _ => True

theorem unicos_transita {e : Suceso} (hu : Unicos s.kernel) (hv : PuertoVisible s e)
    (h : Transita s e s') : Unicos s'.kernel := by
  cases h with
  | termina hs he => exact unicos_empieza hu hv he
  | empieza hs he => exact unicos_empieza hu hv he
  | acaba hs hh hf he => exact hu.conserva (mismosPuertos_sigue he)
  | vuelve hs hh hf he => exact hu.conserva (mismosPuertos_sigue he)
  | recibe hs hd he => exact hu.conserva (mismosPuertos_recibe he)
  | citaDaemon => exact hu
  | cita => exact hu
  | despierta => exact hu
  | suelta => exact hu

theorem visible_of_enUso (h : paso s (.llama c) = some s')
    (huso : ∀ o, c.origen s.kernel = some o → EnUso s.kernel o → ∃ v, Retorna s s' v) :
    c.visible s.kernel := by
  intro o ho hu hneg
  cases critica_of_origen ho with
  | lleno hn => exact Or.inl hn
  | repetida hn hrep =>
      obtain ⟨i, hi, hdest | hpuerto⟩ := hrep
      · exact Or.inr ⟨i, hi, hdest⟩
      · exact absurd hneg (mismoPuerto_iff.mp hpuerto).2
  | toma hn hrep hr =>
      obtain ⟨v, hv⟩ := huso o ho hu
      obtain ⟨i, l, hr⟩ := hr
      rw [((paso_llama h).2.2 v).mp hv] at hr
      exact absurd hr (by simp)

theorem retorna_of_enUso (h : paso s (.llama c) = some s') (hv : c.visible s.kernel)
    {o : TDireccion} (ho : c.origen s.kernel = some o) (huso : EnUso s.kernel o) :
    Retorna s s' (if s.kernel.numCXs = numMaxCXs then exMaxC else exCDup) ∧
      s'.kernel.CXs = s.kernel.CXs := by
  obtain ⟨hkernel, -, hret⟩ := paso_llama h
  cases critica_of_origen ho with
  | lleno hn hr hk =>
      rw [if_pos hn, hkernel, hk]
      exact ⟨(hret exMaxC).mpr hr, rfl⟩
  | repetida hn hrep hr hk =>
      rw [if_neg hn, hkernel, hk]
      exact ⟨(hret exCDup).mpr hr, rfl⟩
  | toma hn hrep hr => exact absurd huso (not_enUso_of_toma hv ho hn hrep)

theorem retorna_fuera (h : paso s (.llama c) = some s') (habre : c.abre)
    (ho : c.origen s.kernel = none) :
    (Retorna s s' exKernel ∨ Retorna s s' exInva) ∧ s'.kernel.CXs = s.kernel.CXs := by
  obtain ⟨hkernel, hbusca, hret⟩ := paso_llama h
  obtain ⟨hk, hr⟩ := fuera_of_origen ho habre
  obtain ⟨v, hr, rfl | rfl⟩ := hr.resolve_left hbusca
  · exact ⟨Or.inl ((hret exKernel).mpr hr), by rw [hkernel, hk]⟩
  · exact ⟨Or.inr ((hret exInva).mpr hr), by rw [hkernel, hk]⟩

theorem puertosUnicos_iff_visible {e : Suceso} (hu : Unicos s.kernel) (h : paso s e = some s') :
    PuertosUnicos s e s' ↔ PuertoVisible s e := by
  constructor
  · intro hp
    cases e with
    | llama c => exact visible_of_enUso h fun o ho huso => ⟨_, (hp.enUso c o rfl ho huso).1⟩
    | _ => trivial
  · intro hv
    refine ⟨unicos_transita hu hv (transita_of_paso h), ?_, ?_⟩
    · rintro c o rfl ho huso
      exact retorna_of_enUso h hv ho huso
    · rintro c rfl habre ho
      exact retorna_fuera h habre ho

theorem unicos_inicial (interfaz : String) (numBufPkts : UInt16) (fuera : Int → Conexion)
    (basura : ℕ → BufPkt) : Unicos (kernelInicial interfaz numBufPkts fuera basura) := by
  intro i j hi _ hocu
  simp [KernelShm.ocupada, kernelInicial, iniciaKernel, inicializarCXsLibres, hi, Conexion.nula] at hocu

/-- In every run the occupied cells have distinct ports, and every call with a port in use fails, exactly
as long as the port in use is visible in every call. -/
theorem puertosUnicos_iff {interfaz : String} {numBufPkts : UInt16} {fuera : Int → Conexion}
    {basura : ℕ → BufPkt} (es : List Suceso) :
    Along paso PuertosUnicos (inicial (kernelInicial interfaz numBufPkts fuera basura)) es ↔
      Along paso (fun s e _ => PuertoVisible s e)
        (inicial (kernelInicial interfaz numBufPkts fuera basura)) es :=
  along_iff_along (fun s => Unicos s.kernel) (fun s e _ => PuertoVisible s e)
    (fun _ _ _ hu hv h => unicos_transita hu hv (transita_of_paso h))
    (fun _ _ _ hu h => puertosUnicos_iff_visible hu h) es
    (unicos_inicial interfaz numBufPkts fuera basura)

/-- Two calls listen on the port -1. -/
theorem no_puertosUnicos :
    ¬Along paso PuertosUnicos (inicial kernelPorDefecto) [.llama (escucha (-1)), .llama (escucha (-1))] := by
  have hrun : ((paso (inicial kernelPorDefecto) (.llama (escucha (-1)))).bind fun s =>
      (paso s (.llama (escucha (-1)))).map fun s' => (decide (s'.kernel.ocupada 0),
        decide (s'.kernel.ocupada 1), (s'.kernel.CXs 0).puertoOrigen, (s'.kernel.CXs 1).puertoOrigen)) =
      some (true, true, 0xffff, 0xffff) := by decide +kernel
  obtain ⟨s, hs, hs'⟩ := Option.bind_eq_some_iff.mp hrun
  obtain ⟨s', hs', hval⟩ := Option.map_eq_some_iff.mp hs'
  simp only [Prod.mk.injEq, decide_eq_true_eq] at hval
  obtain ⟨h0, h1, hp0, hp1⟩ := hval
  intro h
  have hq := ((Along.cons_of_some hs').mp ((Along.cons_of_some hs).mp h).2).1
  have heq := hq.unicos 0 1 (by decide) (by decide) h0 h1 (hp0.trans hp1.symm)
  exact absurd heq (by decide)

end Ltm.Nodo
