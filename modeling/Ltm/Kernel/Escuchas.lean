import Ltm.Kernel.Tabla

/-! # Listeners and the requests they admit

A listener states the remote addresses that it admits, and a zero in its remote IP or port stands for
any. `asign_conexion_CR` tests three of the four combinations: it passes over a listener for any IP with
one port (`admite_iff`). A request that it finds no listener for goes on all the same, with a cell in
front of the table.
-/

namespace Ltm.Kernel
set_option autoImplicit false
set_option maxHeartbeats 250000

/-! ## The listener of a request -/

/-- The cell listens at the address that the CR names and admits the address it comes from. -/
def admite (c : Conexion) (h : CabTcp) : Prop :=
  c.estadoCx = .listen ∧ c.ipLocal = h.ipDestino ∧ c.puertoOrigen = h.puertoDest ∧
    (c.ipDestino = 0 ∨ c.ipDestino = h.ipLocal) ∧ (c.puertoDestino = 0 ∨ c.puertoDestino = h.puertoOrig)

instance (c : Conexion) (h : CabTcp) : Decidable (admite c h) :=
  inferInstanceAs (Decidable (_ ∧ _ ∧ _ ∧ (_ ∨ _) ∧ (_ ∨ _)))

/-- The cell listens, at the address that the CR names, for any IP with the port of the CR. -/
def soloPuerto (c : Conexion) (h : CabTcp) : Prop :=
  c.estadoCx = .listen ∧ c.ipLocal = h.ipDestino ∧ c.puertoOrigen = h.puertoDest ∧
    c.ipDestino = 0 ∧ h.ipLocal ≠ 0 ∧ c.puertoDestino = h.puertoOrig ∧ h.puertoOrig ≠ 0

/-- The value `r` of `asign_conexion_CR` is the lowest cell that admits the CR, or `EXNOTSAP` if there is
none. -/
structure Asigna (k : KernelShm) (p : Tpdu) (r : Int) : Prop where
  celda : ∀ i, EnTabla i → (r = i ↔ admite (k.CXs i) p.cabecera ∧
    ∀ j, EnTabla j → j < i → ¬admite (k.CXs j) p.cabecera)
  ninguna : r = exNoTsap ↔ ∀ i, EnTabla i → ¬admite (k.CXs i) p.cabecera

variable {k k' : KernelShm} {p : Tpdu} {c : Conexion} {h : CabTcp}

theorem admite_iff : admite c h ↔ encaja c h ∨ soloPuerto c h := by
  constructor
  · rintro ⟨hest, hip, hpuerto, hip0 | hip', hp0 | hp'⟩
    · exact Or.inl ⟨hip.symm, hpuerto.symm, Or.inl ⟨hip0, hp0, hest⟩⟩
    · by_cases hcero : h.puertoOrig = 0
      · exact Or.inl ⟨hip.symm, hpuerto.symm, Or.inl ⟨hip0, hp'.trans hcero, hest⟩⟩
      · by_cases hcero' : h.ipLocal = 0
        · exact Or.inl ⟨hip.symm, hpuerto.symm, Or.inr (Or.inr ⟨hip0.trans hcero'.symm, hp', hest⟩)⟩
        · exact Or.inr ⟨hest, hip, hpuerto, hip0, hcero', hp', hcero⟩
    · exact Or.inl ⟨hip.symm, hpuerto.symm, Or.inr (Or.inl ⟨hip', hp0, hest⟩)⟩
    · exact Or.inl ⟨hip.symm, hpuerto.symm, Or.inr (Or.inr ⟨hip', hp', hest⟩)⟩
  · rintro (⟨hip, hpuerto, ⟨hip', hp, hest⟩ | ⟨hip', hp, hest⟩ | ⟨hip', hp, hest⟩⟩ |
      ⟨hest, hip, hpuerto, hip', -, hp, -⟩)
    · exact ⟨hest, hip.symm, hpuerto.symm, Or.inl hip', Or.inl hp⟩
    · exact ⟨hest, hip.symm, hpuerto.symm, Or.inr hip', Or.inl hp⟩
    · exact ⟨hest, hip.symm, hpuerto.symm, Or.inr hip', Or.inr hp⟩
    · exact ⟨hest, hip, hpuerto, Or.inl hip', Or.inr hp⟩

theorem not_encaja_of_soloPuerto (hs : soloPuerto c h) : ¬encaja c h := by
  obtain ⟨-, -, -, hip, hcero, hp, hcero'⟩ := hs
  rintro ⟨-, -, ⟨-, hp', -⟩ | ⟨hip', -, -⟩ | ⟨hip', -, -⟩⟩
  · exact hcero' (hp.symm.trans hp')
  · exact hcero (hip'.symm.trans hip)
  · exact hcero (hip'.symm.trans hip)

/-- What `asign_conexion_CR` returns, in the terms of its own test. -/
theorem asignConexionCR_first (p : Tpdu) (k : KernelShm) :
    (∃ i, EnTabla i ∧ encaja (k.CXs i) p.cabecera ∧
        (∀ j, EnTabla j → j < i → ¬encaja (k.CXs j) p.cabecera) ∧ asignConexionCR p k = i) ∨
      (∀ i, EnTabla i → ¬encaja (k.CXs i) p.cabecera) ∧ asignConexionCR p k = exNoTsap := by
  unfold asignConexionCR
  rcases primera_cases (fun i => encaja (k.CXs i) p.cabecera) exNoTsap with
    ⟨i, hi, hp, hprimera, e⟩ | ⟨hno, e⟩
  · refine Or.inl ⟨i, enTabla_natCast.mpr hi, hp, fun j hj hji => ?_, e⟩
    obtain ⟨n, -, rfl⟩ := enTabla_iff.mp hj
    exact hprimera n (by omega)
  · refine Or.inr ⟨fun i hi => ?_, e⟩
    obtain ⟨n, hn, rfl⟩ := enTabla_iff.mp hi
    exact hno n hn

theorem asignConexionCR_eq_exNoTsap_iff :
    asignConexionCR p k = exNoTsap ↔ ∀ i, EnTabla i → ¬encaja (k.CXs i) p.cabecera := by
  rcases asignConexionCR_first p k with ⟨i, hi, hp, -, e⟩ | ⟨hno, e⟩
  · refine iff_of_false (fun e' => ?_) fun hno => hno i hi hp
    rw [← e, e'] at hi
    exact not_enTabla_exNoTsap hi
  · exact iff_of_true e hno

/-- `asign_conexion_CR` follows the rule of the wildcards exactly if every listener that it passes over
has a lower one that it does not. -/
theorem asigna_iff : Asigna k p (asignConexionCR p k) ↔
    ∀ i, EnTabla i → soloPuerto (k.CXs i) p.cabecera →
      ∃ j, EnTabla j ∧ j < i ∧ encaja (k.CXs j) p.cabecera := by
  have hfirst := asignConexionCR_first p k
  generalize asignConexionCR p k = r at hfirst
  constructor
  · rintro ⟨hcelda, hninguna⟩ i hi hsolo
    rcases hfirst with ⟨m, hm, hp, -, rfl⟩ | ⟨-, rfl⟩
    · refine ⟨r, hm, ?_, hp⟩
      obtain ⟨-, hmenor⟩ := (hcelda r hm).mp rfl
      have hle : r ≤ i := by
        by_contra hlt
        exact hmenor i hi (by omega) (admite_iff.mpr (Or.inr hsolo))
      have hne : r ≠ i := by
        rintro rfl
        exact not_encaja_of_soloPuerto hsolo hp
      omega
    · exact absurd (admite_iff.mpr (Or.inr hsolo)) (hninguna.mp rfl i hi)
  · intro hsolo
    -- below the cell found, and in the whole table if there is none, no cell admits the CR
    have hbajo : ∀ m, (∀ j, EnTabla j → j < m → ¬encaja (k.CXs j) p.cabecera) →
        ∀ j, EnTabla j → j < m → ¬admite (k.CXs j) p.cabecera := by
      intro m hno j hj hjm ha
      rcases admite_iff.mp ha with he | hs
      · exact hno j hj hjm he
      · obtain ⟨j', hj', hlt, he⟩ := hsolo j hj hs
        exact hno j' hj' (by omega) he
    rcases hfirst with ⟨m, hm, hp, hprimera, rfl⟩ | ⟨hno, rfl⟩
    · have hadm : admite (k.CXs r) p.cabecera := admite_iff.mpr (Or.inl hp)
      refine ⟨fun i hi => ⟨?_, fun ⟨ha, hmenor⟩ => ?_⟩, ?_⟩
      · rintro rfl
        exact ⟨hadm, hbajo r hprimera⟩
      · rcases lt_trichotomy r i with hlt | heq | hgt
        · exact absurd hadm (hmenor r hm hlt)
        · exact heq
        · exact absurd ha (hbajo r hprimera i hi hgt)
      · refine iff_of_false (fun e => ?_) fun hno => hno r hm hadm
        rw [e] at hm
        exact not_enTabla_exNoTsap hm
    · have hnadie : ∀ i, EnTabla i → ¬admite (k.CXs i) p.cabecera := fun i hi =>
        hbajo numMaxCXs (fun j hj _ => hno j hj) i hi hi.2
      refine ⟨fun i hi => iff_of_false ?_ fun ha => hnadie i hi ha.1,
        iff_of_true rfl hnadie⟩
      rintro rfl
      exact not_enTabla_exNoTsap hi

/-- The default kernel once an application listens at 10.0.0.1:80 for port 1000 of any host. -/
def kernelEscucha : KernelShm :=
  (tListen entornoVacio ⟨0x0a000001, 80⟩ (some ⟨0, 1000⟩) ⟨kernelPorDefecto, []⟩).2.kernel

/-- A CR from port 1000 of 10.0.0.2 to port 80 of 10.0.0.1. -/
def crDesde1000 : Tpdu := crearPkt Tpdu.nulo tipoCR ⟨0x0a000001, 80⟩ ⟨0x0a000002, 1000⟩ [] 0 3 0

/-- The request finds no listener, and cell 0 admits it. -/
theorem no_asigna : ¬Asigna kernelEscucha crDesde1000 (asignConexionCR crDesde1000 kernelEscucha) := by
  have hr : asignConexionCR crDesde1000 kernelEscucha = exNoTsap := by decide +kernel
  have ha : admite (kernelEscucha.CXs 0) crDesde1000.cabecera := by decide +kernel
  intro h
  exact h.ninguna.mp hr 0 (by decide) ha

/-! ## The answer to a request -/

/-- The packet `cc` answers the CR `p`, in a kernel where `asign_conexion_CR` finds what it finds. -/
structure Responde (k : KernelShm) (p cc : Tpdu) : Prop where
  tipo : cc.cabecera.tipo = tipoCC
  idDestino : cc.cabecera.idDestino = p.cabecera.idLocal
  puertoDest : cc.cabecera.puertoDest = p.cabecera.puertoOrig
  puertoOrig : cc.cabecera.puertoOrig = p.cabecera.puertoDest
  positiva : ∀ i, EnTabla i → asignConexionCR p k = i →
    0 < cc.cabecera.conexionAceptada ∧ cc.cabecera.idLocal = i
  negativa : (∀ i, EnTabla i → ¬encaja (k.CXs i) p.cabecera) →
    cc.cabecera.conexionAceptada = exNoTsap ∧ cc.cabecera.ipLocal = p.cabecera.ipDestino

/-- The CR `p` from `ipRemota` has been handled, from the kernel `k` to `k'` with the trace `w`: one CC
answers it, as `enviar_tpdu` reads it, and the cell that it matches becomes a connection with the requester
and is woken; if it matches none, no cell is accessed after the search and no barrier waited on. -/
structure AtiendeCR (k : KernelShm) (ipRemota : InAddr) (p : Tpdu) (lee : Lectura) (k' : KernelShm)
    (w : List Accion) : Prop where
  contesta : ∃ cc, leidos lee w = [(ipRemota, cc)] ∧ Responde k p cc
  conecta : ∀ i, EnTabla i → asignConexionCR p k = i →
    (k'.CXs i).estadoCx = .established ∧ (k'.CXs i).ipDestino = ipRemota ∧
      (k'.CXs i).puertoDestino = p.cabecera.puertoOrig ∧ (k'.CXs i).idDestino = p.cabecera.idLocal
  otras : ∀ i, EnTabla i → asignConexionCR p k = i → ∀ j, j ≠ i → k'.CXs j = k.CXs j
  despierta : ∀ i, EnTabla i → asignConexionCR p k = i → esperas w = [i]
  nada : (∀ i, EnTabla i → ¬encaja (k.CXs i) p.cabecera) →
    k'.CXs = k.CXs ∧ celdas w = [] ∧ esperas w = []

/-- A positive CC built as `p` still has its type, its cells and its ports where it is read as `q`, and
still accepts. -/
structure FielCC (p q : Tpdu) : Prop where
  tipo : q.cabecera.tipo = p.cabecera.tipo
  idLocal : q.cabecera.idLocal = p.cabecera.idLocal
  idDestino : q.cabecera.idDestino = p.cabecera.idDestino
  puertoOrig : q.cabecera.puertoOrig = p.cabecera.puertoOrig
  puertoDest : q.cabecera.puertoDest = p.cabecera.puertoDest
  aceptada : 0 < q.cabecera.conexionAceptada

variable {ipRemota : InAddr} {lee : Lectura}

theorem responde_iff_fielCC {i : Int} {cc : Tpdu} (hi : EnTabla i) (e : asignConexionCR p k = i) :
    Responde k p cc ↔ FielCC (k.bufferCC ipRemota p).pkt cc := by
  have hno : asignConexionCR p k ≠ exNoTsap := by
    intro e'
    rw [← e, e'] at hi
    exact not_enTabla_exNoTsap hi
  have hlocal : (k.bufferCC ipRemota p).pkt.cabecera.idLocal = i := e
  constructor
  · rintro ⟨ht, hid, hdest, horig, hpos, -⟩
    obtain ⟨hacep, hl⟩ := hpos i hi e
    exact ⟨ht, hl.trans hlocal.symm, hid, horig, hdest, hacep⟩
  · rintro ⟨ht, hl, hid, horig, hdest, hacep⟩
    refine ⟨ht, hid, hdest, horig, fun j _ hj => ⟨hacep, ?_⟩, fun hnadie => ?_⟩
    · rw [hl, hlocal, ← e, hj]
    · exact absurd (asignConexionCR_eq_exNoTsap_iff.mpr hnadie) hno

/-- Without a listener the write to the cell that the daemon takes is the last of the trace. -/
theorem hastaFuera_trazaCR (h : asignConexionCR p k = exNoTsap) :
    hastaFuera (trazaCR k ipRemota p) = [.bloquearAcceso, .acceso exNoTsap] := by
  have hdentro : ∀ i ∈ Accion.bloquearAcceso.celda, EnTabla i := by simp [Accion.celda]
  have hfuera : ¬∀ i ∈ (Accion.acceso exNoTsap).celda, EnTabla i := fun hno =>
    not_enTabla_exNoTsap (hno exNoTsap rfl)
  unfold trazaCR
  rw [h, hastaFuera, if_pos hdentro, hastaFuera, if_neg hfuera]

/-- A CR is handled so exactly if it finds a listener and the CC is read as it was built: if it finds none,
the daemon takes the error for an index of the table. -/
theorem atiendeCR_iff :
    AtiendeCR k ipRemota p lee (k.trasCR ipRemota p) (hastaFuera (trazaCR k ipRemota p)) ↔
      (∃ i, EnTabla i ∧ encaja (k.CXs i) p.cabecera) ∧
        FielCC (k.bufferCC ipRemota p).pkt (lee 0 (k.bufferCC ipRemota p).pkt) := by
  by_cases hno : asignConexionCR p k = exNoTsap
  · have hnadie := asignConexionCR_eq_exNoTsap_iff.mp hno
    rw [hastaFuera_trazaCR hno]
    refine iff_of_false (fun h => ?_) fun ⟨⟨i, hi, he⟩, _⟩ => hnadie i hi he
    exact absurd (h.nada hnadie).2.1 (by simp [celdas, Accion.celda])
  obtain ⟨hres, he⟩ := (asignConexionCR_cases p k).resolve_right hno
  have henvia : leidos lee (trazaCR k ipRemota p) =
      [(ipRemota, lee 0 (k.bufferCC ipRemota p).pkt)] := rfl
  rw [hastaFuera_of_accesos ((soloCelda_trazaCR ipRemota p).accesos hres)]
  constructor
  · intro h
    obtain ⟨cc, hcc, hresponde⟩ := h.contesta
    rw [henvia] at hcc
    obtain rfl := (Prod.mk.inj (List.singleton_inj.mp hcc)).2
    exact ⟨⟨_, hres, he⟩, (responde_iff_fielCC hres rfl).mp hresponde⟩
  · rintro ⟨-, hfiel⟩
    refine ⟨⟨_, henvia, (responde_iff_fielCC hres rfl).mpr hfiel⟩, ?_, ?_, ?_,
      fun hnadie => absurd he (hnadie _ hres)⟩
    · rintro j hj rfl
      rw [trasCR_of_enTabla hj]
      exact ⟨rfl, rfl, rfl, rfl⟩
    · rintro j - rfl j' hj'
      exact trasCR_of_ne hj'
    · rintro j - rfl
      rfl

end Ltm.Kernel
