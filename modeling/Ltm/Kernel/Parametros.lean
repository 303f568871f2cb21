import Ltm.Kernel.Repetidos

/-! # Parameters: `comprobar_parametros`

`t_connect` and `t_listen` complete the local address that they are given: a zero IP with that of the
interface, and for a connect a zero port with one that `buscar_puerto_libre` draws. Completion fails to
notice an interface without IP (`completa_iff`), and what it writes stays when the call fails afterwards
(`sinRastro`).
-/

namespace Ltm.Kernel
set_option autoImplicit false
set_option maxHeartbeats 250000

variable {e : Entorno} {interfaz : String} {destino origen o : TDireccion} {k : KernelShm} {r : Int}

/-! ## The port drawn -/

/-- The test of a turn of `buscar_puerto_libre`. -/
theorem puertoLibre_iff {p : UInt16} : primera (fun i => (k.CXs i).puertoOrigen = p) (-1) = -1 ↔
    ∀ i, EnTabla i → (k.CXs i).puertoOrigen ≠ p := by
  rcases primera_cases (fun i => (k.CXs i).puertoOrigen = p) (-1) with ⟨i, hi, hp, -, e⟩ | ⟨hno, e⟩
  · rw [e]
    exact iff_of_false (by omega) fun h => h i (enTabla_natCast.mpr hi) hp
  · rw [e]
    refine iff_of_true rfl fun i hi hp => ?_
    obtain ⟨n, hn, rfl⟩ := enTabla_iff.mp hi
    exact hno n hn hp

/-- The last scan of `buscar_puerto_libre` drew the port `p`, and did not find it. -/
theorem buscarPuertoLibre_some {vueltas : List (ℕ × KernelShm)} {p : UInt16}
    (h : buscarPuertoLibre vueltas = some p) : 1 ≤ p.toNat ∧ p.toNat ≤ 32767 ∧
      ∃ r k, (r, k) ∈ vueltas ∧ p = UInt16.ofNat (1 + r % 32767) ∧
        ∀ i, EnTabla i → (k.CXs i).puertoOrigen ≠ p := by
  induction vueltas with
  | nil => exact absurd h (by simp [buscarPuertoLibre])
  | cons v vueltas ih =>
      obtain ⟨r, k⟩ := v
      rw [buscarPuertoLibre] at h
      split at h
      · next hlibre =>
        obtain rfl := Option.some.inj h
        have hr : (UInt16.ofNat (1 + r % 32767)).toNat = 1 + r % 32767 := by
          rw [UInt16.toNat_ofNat']
          omega
        exact ⟨by omega, by omega, r, k, List.mem_cons_self, rfl, puertoLibre_iff.mp hlibre⟩
      · obtain ⟨h1, h2, r', k', hmem, hp⟩ := ih h
        exact ⟨h1, h2, r', k', List.mem_cons_of_mem _ hmem, hp⟩

theorem toInt16_ne_zero {p : UInt16} (h : 1 ≤ p.toNat) : p.toInt16 ≠ 0 := by
  intro e
  have hp : p = 0 := congrArg Int16.toUInt16 e
  rw [hp] at h
  exact absurd h (by decide)

/-! ## The local IP -/

/-- The entry gives the interface of this name the address `ip`. -/
def Interfaz.ofrece (a : Interfaz) (nombre : String) (ip : InAddr) : Prop :=
  a.nombre = nombre ∧ a.direccion = some (afInet, ip)

/-- `ip` is the first address that the list gives the interface of this name. -/
def PrimeraIP (lista : List Interfaz) (nombre : String) (ip : InAddr) : Prop :=
  ∃ antes a despues, lista = antes ++ a :: despues ∧ a.ofrece nombre ip ∧
    ∀ b ∈ antes, ∀ ip', ¬b.ofrece nombre ip'

/-- The address that `obtener_IP_local` leaves in an `ip` that was zero. -/
def ipLocal (e : Entorno) (interfaz : String) : InAddr := (obtenerIPLocal e.interfaces interfaz 0).2

/-- The test of the loop of `obtener_IP_local` on one entry. -/
def ipDe (nombre : String) (a : Interfaz) : Option InAddr :=
  match a.direccion with
  | some (familia, direccion) =>
    if a.nombre = nombre ∧ familia = afInet then some direccion else none
  | none => none

theorem ipDe_eq_some_iff {nombre : String} {a : Interfaz} {ip : InAddr} :
    ipDe nombre a = some ip ↔ a.ofrece nombre ip := by
  unfold ipDe Interfaz.ofrece
  cases a.direccion with
  | none => simp
  | some d =>
      obtain ⟨familia, direccion⟩ := d
      dsimp only
      by_cases h : a.nombre = nombre ∧ familia = afInet
      · obtain ⟨rfl, rfl⟩ := h
        simp
      · rw [if_neg h]
        refine iff_of_false (by simp) ?_
        rintro ⟨hn, hd⟩
        exact h ⟨hn, (Prod.mk.inj (Option.some.inj hd)).1⟩

theorem obtenerIPLocal_some (lista : List Interfaz) (nombre : String) (ip : InAddr) :
    obtenerIPLocal (some lista) nombre ip = (1, (lista.findSome? (ipDe nombre)).getD ip) := rfl

theorem findSome?_ipDe_eq_some_iff {lista : List Interfaz} {nombre : String} {ip : InAddr} :
    lista.findSome? (ipDe nombre) = some ip ↔ PrimeraIP lista nombre ip := by
  rw [List.findSome?_eq_some_iff]
  have hno : ∀ b : Interfaz, ipDe nombre b = none ↔ ∀ ip', ¬b.ofrece nombre ip' := fun b => by
    rw [Option.eq_none_iff_forall_ne_some]
    exact forall_congr' fun ip' => not_congr ipDe_eq_some_iff
  constructor
  · rintro ⟨antes, a, despues, e, ha, hantes⟩
    exact ⟨antes, a, despues, e, ipDe_eq_some_iff.mp ha, fun b hb => (hno b).mp (hantes b hb)⟩
  · rintro ⟨antes, a, despues, e, ha, hantes⟩
    exact ⟨antes, a, despues, e, ipDe_eq_some_iff.mpr ha, fun b hb => (hno b).mpr (hantes b hb)⟩

theorem ipLocal_of_none (h : e.interfaces = none) : ipLocal e interfaz = 0 := by
  rw [ipLocal, h]
  rfl

theorem ipLocal_of_primera {lista : List Interfaz} {ip : InAddr} (h : e.interfaces = some lista)
    (hp : PrimeraIP lista interfaz ip) : ipLocal e interfaz = ip := by
  rw [ipLocal, h, obtenerIPLocal_some, findSome?_ipDe_eq_some_iff.mpr hp]
  rfl

/-! ## The address completed -/

theorem completarIP_eq_none_iff :
    completarIP e interfaz origen = none ↔ origen.ip = 0 ∧ e.interfaces = none := by
  unfold completarIP
  by_cases hip : origen.ip = 0
  · rw [if_pos hip]
    cases e.interfaces with
    | none => exact iff_of_true rfl ⟨hip, rfl⟩
    | some lista =>
        rw [obtenerIPLocal_some]
        exact iff_of_false (by simp) (by simp)
  · rw [if_neg hip]
    exact iff_of_false (by simp) fun h => hip h.1

theorem completarIP_some (h : completarIP e interfaz origen = some o) :
    o.puerto = origen.puerto ∧ o.ip = if origen.ip = 0 then ipLocal e interfaz else origen.ip := by
  unfold completarIP at h
  by_cases hip : origen.ip = 0
  · rw [if_pos hip, hip] at h
    dsimp only at h
    split at h
    · exact absurd h (by simp)
    · obtain rfl := Option.some.inj h
      exact ⟨rfl, (if_pos hip).symm⟩
  · rw [if_neg hip] at h
    obtain rfl := Option.some.inj h
    exact ⟨rfl, (if_neg hip).symm⟩

theorem completarPuerto_some (h : completarPuerto e origen = some o) : o.ip = origen.ip ∧
    if origen.puerto = 0 then ∃ p, buscarPuertoLibre e.vueltas = some p ∧ o.puerto = p.toInt16
    else o.puerto = origen.puerto := by
  unfold completarPuerto at h
  by_cases hp : origen.puerto = 0
  · rw [if_pos hp] at h
    obtain ⟨p, hp', rfl⟩ := Option.map_eq_some_iff.mp h
    rw [if_pos hp]
    exact ⟨rfl, p, hp', rfl⟩
  · rw [if_neg hp] at h
    obtain rfl := Option.some.inj h
    rw [if_neg hp]
    exact ⟨rfl, rfl⟩

theorem puerto_completado (h : completarPuerto e origen = some o) : o.puerto ≠ 0 := by
  have hp := (completarPuerto_some h).2
  split at hp
  · obtain ⟨p, hp, e'⟩ := hp
    rw [e']
    exact toInt16_ne_zero (buscarPuertoLibre_some hp).1
  · next h0 =>
    rw [hp]
    exact h0

/-- What `comprobar_parametros` can do with the parameters of a connect. -/
inductive Comprobado (e : Entorno) (interfaz : String) (destino origen : TDireccion) :
    Int → TDireccion → Prop
  | sinInterfaces (hip : origen.ip = 0) (hno : e.interfaces = none) :
      Comprobado e interfaz destino origen (-1) origen
  | completado {o o' : TDireccion} (hip : completarIP e interfaz origen = some o)
      (hp : completarPuerto e o = some o') : Comprobado e interfaz destino origen
        (if destino.puerto = 0 ∨ destino.ip = 0 then -1 else 0) o'

theorem comprobado (h : comprobarConnect e interfaz destino origen = some (r, o)) :
    Comprobado e interfaz destino origen r o := by
  unfold comprobarConnect at h
  cases hip : completarIP e interfaz origen with
  | none =>
      rw [hip] at h
      obtain ⟨rfl, rfl⟩ := Prod.mk.inj (Option.some.inj h)
      obtain ⟨h0, hno⟩ := completarIP_eq_none_iff.mp hip
      exact .sinInterfaces h0 hno
  | some o' =>
      rw [hip] at h
      obtain ⟨o'', hp, e'⟩ := Option.map_eq_some_iff.mp h
      obtain ⟨rfl, rfl⟩ := Prod.mk.inj e'
      exact .completado hip hp

/-! ## Complete addresses -/

/-- `obtener_IP_local` finds the first address of the interface, and tells whether there is one. -/
structure ObtieneIP (interfaces : Option (List Interfaz)) (nombre : String) : Prop where
  resultado : ∀ ip, (obtenerIPLocal interfaces nombre ip).1 ≠ 0 ↔
    ∃ lista ∈ interfaces, ∃ a ∈ lista, ∃ ip', a.ofrece nombre ip'
  primera : ∀ ip, (obtenerIPLocal interfaces nombre ip).1 ≠ 0 →
    ∃ lista ∈ interfaces, PrimeraIP lista nombre (obtenerIPLocal interfaces nombre ip).2

/-- The addresses that pass `comprobar_parametros` have no zero left. -/
structure Completa (e : Entorno) (interfaz : String) : Prop where
  connect : ∀ destino origen o, comprobarConnect e interfaz destino origen = some (0, o) →
    o.ip ≠ 0 ∧ o.puerto ≠ 0 ∧ destino.ip ≠ 0 ∧ destino.puerto ≠ 0
  listen : ∀ escucha o, comprobarListen e interfaz escucha = (0, o) → o.ip ≠ 0 ∧ o.puerto ≠ 0

/-- No interface has the address 0.0.0.0. -/
def SinCeros (interfaces : Option (List Interfaz)) : Prop :=
  ∀ lista ∈ interfaces, ∀ a ∈ lista, ∀ nombre, ¬a.ofrece nombre 0

/-- The interface of this name has an IP in the list that `getifaddrs` returns, if it returns one. -/
def ConIP (interfaces : Option (List Interfaz)) (nombre : String) : Prop :=
  ∀ lista ∈ interfaces, ∃ a ∈ lista, ∃ ip, a.ofrece nombre ip

theorem primeraIP_of_ofrece {lista : List Interfaz} {nombre : String} {a : Interfaz} {ip : InAddr}
    (ha : a ∈ lista) (h : a.ofrece nombre ip) : ∃ ip', PrimeraIP lista nombre ip' := by
  cases hf : lista.findSome? (ipDe nombre) with
  | some ip' => exact ⟨ip', findSome?_ipDe_eq_some_iff.mp hf⟩
  | none =>
      have hno := List.findSome?_eq_none_iff.mp hf a ha
      rw [ipDe_eq_some_iff.mpr h] at hno
      exact absurd hno (by simp)

theorem obtieneIP_iff {interfaces : Option (List Interfaz)} {nombre : String} :
    ObtieneIP interfaces nombre ↔ ConIP interfaces nombre := by
  constructor
  · rintro h lista rfl
    have h1 : (obtenerIPLocal (some lista) nombre 0).1 ≠ 0 := one_ne_zero
    obtain ⟨lista', hl, hlista⟩ := (h.resultado 0).mp h1
    obtain rfl := Option.some.inj hl
    exact hlista
  · intro h
    cases interfaces with
    | none => exact ⟨fun _ => iff_of_false (by simp [obtenerIPLocal]) (by simp),
        fun _ h1 => absurd rfl h1⟩
    | some lista =>
        obtain ⟨a, ha, ip, hip⟩ := h lista rfl
        refine ⟨fun ip' => ?_, fun ip' _ => ⟨lista, rfl, ?_⟩⟩
        · rw [obtenerIPLocal_some]
          exact iff_of_true one_ne_zero ⟨lista, rfl, a, ha, ip, hip⟩
        · obtain ⟨ip₁, hip₁⟩ := primeraIP_of_ofrece ha hip
          rw [obtenerIPLocal_some, findSome?_ipDe_eq_some_iff.mpr hip₁]
          exact hip₁

theorem ip_completada (hcon : ConIP e.interfaces interfaz) (hceros : SinCeros e.interfaces)
    (h : completarIP e interfaz origen = some o) : o.ip ≠ 0 := by
  rw [(completarIP_some h).2]
  by_cases hip : origen.ip = 0
  · rw [if_pos hip]
    cases hi : e.interfaces with
    | none =>
        rw [completarIP_eq_none_iff.mpr ⟨hip, hi⟩] at h
        exact absurd h (by simp)
    | some lista =>
        obtain ⟨a, ha, ip, hofrece⟩ := hcon lista hi
        obtain ⟨ip', hprimera⟩ := primeraIP_of_ofrece ha hofrece
        rw [ipLocal_of_primera hi hprimera]
        rintro rfl
        obtain ⟨antes, b, despues, rfl, hb, -⟩ := hprimera
        exact hceros _ hi b (by simp) interfaz hb
  · rwa [if_neg hip]

theorem completa_of_conIP (hcon : ConIP e.interfaces interfaz) (hceros : SinCeros e.interfaces) :
    Completa e interfaz := by
  constructor
  · intro destino origen o h
    have hval : ∀ {r : Int}, Comprobado e interfaz destino origen r o → r = 0 →
        o.ip ≠ 0 ∧ o.puerto ≠ 0 ∧ destino.ip ≠ 0 ∧ destino.puerto ≠ 0 := by
      intro r hc hr
      cases hc with
      | sinInterfaces => exact absurd hr (by decide)
      | completado hip hp =>
          split at hr
          · exact absurd hr (by decide)
          · next hdest =>
            obtain ⟨hpuerto, hdip⟩ := not_or.mp hdest
            refine ⟨?_, puerto_completado hp, hdip, hpuerto⟩
            rw [(completarPuerto_some hp).1]
            exact ip_completada hcon hceros hip
    exact hval (comprobado h) rfl
  · intro escucha o h
    unfold comprobarListen at h
    cases hip : completarIP e interfaz escucha with
    | none =>
        rw [hip] at h
        exact absurd (Prod.mk.inj h).1 (by decide)
    | some o' =>
        rw [hip] at h
        obtain ⟨hr, rfl⟩ := Prod.mk.inj h
        split at hr
        · exact absurd hr (by decide)
        · next hpuerto => exact ⟨ip_completada hcon hceros hip, hpuerto⟩

/-- `obtener_IP_local` tells whether the interface has an IP, and validated addresses are complete,
exactly if the interface has one. -/
theorem completa_iff (e : Entorno) (interfaz : String) :
    ObtieneIP e.interfaces interfaz ∧ (SinCeros e.interfaces → Completa e interfaz) ↔
      ConIP e.interfaces interfaz :=
  ⟨fun h => obtieneIP_iff.mp h.1, fun h => ⟨obtieneIP_iff.mpr h, completa_of_conIP h⟩⟩

/-- A host where `eth0` has an IPv6 address only. -/
def sinIPv4 : Entorno :=
  { entornoVacio with
    interfaces := some [⟨"lo", some (afInet, 0x7f000001)⟩, ⟨"eth0", some (10, 0)⟩, ⟨"eth0", none⟩] }

theorem sinCeros_sinIPv4 : SinCeros sinIPv4.interfaces := by
  intro lista hl a ha nombre h
  obtain rfl := Option.some.inj hl
  obtain ⟨-, hd⟩ := h
  revert a
  decide

/-- There `obtener_IP_local` reports success, and a listener at 0.0.0.0 is valid. -/
theorem no_completa : ¬ObtieneIP sinIPv4.interfaces "eth0" ∧ SinCeros sinIPv4.interfaces ∧
    ¬Completa sinIPv4 "eth0" := by
  refine ⟨fun h => ?_, sinCeros_sinIPv4, fun h => ?_⟩
  · obtain ⟨lista, hl, hprimera⟩ := h.primera 0 one_ne_zero
    obtain rfl := Option.some.inj hl
    have hno := findSome?_ipDe_eq_some_iff.mpr hprimera
    exact absurd hno (by decide)
  · exact (h.listen ⟨0, 80⟩ ⟨0, 80⟩ (by decide)).1 rfl

/-! ## Early failures -/

/-- The errors of the tests that a call makes before it takes a cell. -/
def falloTemprano (v : Int) : Prop := v = exInva ∨ v = exMaxC ∨ v = exCDup

instance (v : Int) : Decidable (falloTemprano v) := inferInstanceAs (Decidable (_ ∨ _ ∨ _))

/-- The local address that the caller gives. -/
def Llamada.dada : Llamada → TDireccion
  | .connect _ _ origen => origen
  | .listen _ escucha _ => escucha
  | .send _ _ _ _ => ⟨0, 0⟩

/-- What the caller has in its place when the call stops first. -/
def Llamada.dejada (k : KernelShm) : Llamada → TDireccion
  | .connect e destino origen => (tConnect e destino origen ⟨k, []⟩).1.1
  | .listen e escucha remota => (tListen e escucha remota ⟨k, []⟩).1.1
  | .send _ _ _ _ => ⟨0, 0⟩

/-- There is nothing to complete in the local address, or it is not come to. -/
def Llamada.entera (k : KernelShm) : Llamada → Prop
  | .connect e _ origen => origen.ip = 0 ∧ e.interfaces = none ∨
      origen.puerto ≠ 0 ∧ (origen.ip ≠ 0 ∨ ipLocal e k.interfaz = 0)
  | .listen e escucha _ => escucha.ip ≠ 0 ∨ ipLocal e k.interfaz = 0
  | .send _ _ _ _ => True

/-- The call has left the kernel as it was and sent nothing, and of the local address only what was zero
can have changed. -/
structure SinRastro (k : KernelShm) (c : Llamada) : Prop where
  kernel : (c.empieza ⟨k, []⟩).2.kernel.suelto = k.suelto
  envios : envios (c.empieza ⟨k, []⟩).2.traza = []
  ip : c.dada.ip ≠ 0 → (c.dejada k).ip = c.dada.ip
  puerto : c.dada.puerto ≠ 0 → (c.dejada k).puerto = c.dada.puerto

theorem completarIP_eq_iff (hip : completarIP e interfaz origen = some o) :
    o = origen ↔ origen.ip ≠ 0 ∨ ipLocal e interfaz = 0 := by
  obtain ⟨hpuerto, hip⟩ := completarIP_some hip
  by_cases h0 : origen.ip = 0
  · rw [if_pos h0] at hip
    rw [or_iff_right (not_not.mpr h0), ← hip]
    constructor
    · rintro rfl
      exact h0
    · intro h
      exact congr (congrArg TDireccion.mk (h.trans h0.symm)) hpuerto
  · rw [if_neg h0] at hip
    exact iff_of_true (congr (congrArg TDireccion.mk hip) hpuerto) (Or.inl h0)

theorem completado_eq_iff {o' : TDireccion} (hip : completarIP e interfaz origen = some o)
    (hp : completarPuerto e o = some o') : o' = origen ↔
      origen.puerto ≠ 0 ∧ (origen.ip ≠ 0 ∨ ipLocal e interfaz = 0) := by
  have hpuerto := (completarIP_some hip).1
  by_cases h0 : origen.puerto = 0
  · refine iff_of_false ?_ fun h => h.1 h0
    rintro rfl
    exact puerto_completado hp h0
  · rw [completarPuerto, if_neg (hpuerto.trans_ne h0)] at hp
    obtain rfl := Option.some.inj hp
    rw [completarIP_eq_iff hip]
    exact (and_iff_right h0).symm

theorem no_send_of_abre {c : Llamada} (habre : c.abre) :
    ∀ e id datos longitud, c ≠ .send e id datos longitud := by
  rintro e id datos longitud rfl
  exact habre

theorem not_falloTemprano_exKernel : ¬falloTemprano exKernel := by
  decide

theorem dejada_connect_eq (hk : ¬e.getKernel < 0)
    (hpar : comprobarConnect e k.interfaz destino origen = some (r, o)) :
    (Llamada.connect e destino origen).dejada k = o := by
  show (tConnect e destino origen ⟨k, []⟩).1.1 = o
  unfold tConnect
  rw [if_neg hk, leeKernel_bind, hpar]
  dsimp only
  split <;> rfl

theorem dejada_listen_eq {escucha : TDireccion} (remota : Option TDireccion) (hk : ¬e.getKernel < 0) :
    (Llamada.listen e escucha remota).dejada k = (comprobarListen e k.interfaz escucha).2 := by
  show (tListen e escucha remota ⟨k, []⟩).1.1 = _
  unfold tListen
  rw [if_neg hk, leeKernel_bind]
  dsimp only
  split <;> rfl

/-- A `t_connect` that fails early has come to the end of `comprobar_parametros`. -/
theorem fallo_connect {v : Int} (hv : falloTemprano v)
    (hr : ((Llamada.connect e destino origen).empieza ⟨k, []⟩).1 = .retorna v) :
    ∃ r, comprobarConnect e k.interfaz destino origen =
      some (r, (Llamada.connect e destino origen).dejada k) := by
  change (tConnect e destino origen ⟨k, []⟩).1.2 = .retorna v at hr
  unfold tConnect at hr
  by_cases hk : e.getKernel < 0
  · rw [if_pos hk] at hr
    obtain rfl : exKernel = v := Paso.retorna.inj hr
    exact absurd hv not_falloTemprano_exKernel
  cases hpar : comprobarConnect e k.interfaz destino origen with
  | none =>
      rw [if_neg hk, leeKernel_bind, hpar] at hr
      exact absurd hr (by simp [pure_run])
  | some par => exact ⟨par.1, by rw [dejada_connect_eq hk hpar]⟩

theorem fallo_listen {escucha : TDireccion} {remota : Option TDireccion} {v : Int}
    (hv : falloTemprano v)
    (hr : ((Llamada.listen e escucha remota).empieza ⟨k, []⟩).1 = .retorna v) :
    (Llamada.listen e escucha remota).dejada k = (comprobarListen e k.interfaz escucha).2 := by
  change (tListen e escucha remota ⟨k, []⟩).1.2 = .retorna v at hr
  unfold tListen at hr
  by_cases hk : e.getKernel < 0
  · rw [if_pos hk] at hr
    obtain rfl : exKernel = v := Paso.retorna.inj hr
    exact absurd hv not_falloTemprano_exKernel
  · exact dejada_listen_eq remota hk

theorem ip_of_completarIP (hip : completarIP e interfaz origen = some o) (h0 : origen.ip ≠ 0) :
    o.ip = origen.ip := by
  rw [(completarIP_some hip).2, if_neg h0]

theorem dejada_listen (escucha : TDireccion) : let o := (comprobarListen e interfaz escucha).2
    (escucha.ip ≠ 0 → o.ip = escucha.ip) ∧ o.puerto = escucha.puerto ∧
      (o = escucha ↔ escucha.ip ≠ 0 ∨ ipLocal e interfaz = 0) := by
  unfold comprobarListen
  cases hip : completarIP e interfaz escucha with
  | none =>
      obtain ⟨-, hno⟩ := completarIP_eq_none_iff.mp hip
      exact ⟨fun _ => rfl, rfl, iff_of_true rfl (Or.inr (ipLocal_of_none hno))⟩
  | some o =>
      exact ⟨ip_of_completarIP hip, (completarIP_some hip).1, completarIP_eq_iff hip⟩

theorem dejada_connect (h : Comprobado e interfaz destino origen r o) :
    (origen.ip ≠ 0 → o.ip = origen.ip) ∧ (origen.puerto ≠ 0 → o.puerto = origen.puerto) ∧
      (o = origen ↔ origen.ip = 0 ∧ e.interfaces = none ∨
        origen.puerto ≠ 0 ∧ (origen.ip ≠ 0 ∨ ipLocal e interfaz = 0)) := by
  cases h with
  | sinInterfaces hip hno =>
      exact ⟨fun _ => rfl, fun _ => rfl, iff_of_true rfl (Or.inl ⟨hip, hno⟩)⟩
  | completado hip hp =>
      have hsome : ¬(origen.ip = 0 ∧ e.interfaces = none) := fun h => by
        rw [completarIP_eq_none_iff.mpr h] at hip
        exact absurd hip (by simp)
      refine ⟨fun h0 => ?_, fun h0 => ?_, ?_⟩
      · rw [(completarPuerto_some hp).1]
        exact ip_of_completarIP hip h0
      · have hpuerto := (completarPuerto_some hp).2
        rwa [(completarIP_some hip).1, if_neg h0] at hpuerto
      · rw [completado_eq_iff hip hp, or_iff_right hsome]

/-- A call that fails early leaves the kernel as it was and has sent nothing; what it has completed of its
local address stays, so the address is the one given exactly if there was nothing to complete. -/
theorem sinRastro {c : Llamada} {v : Int} (habre : c.abre) (hv : falloTemprano v)
    (hr : (c.empieza ⟨k, []⟩).1 = .retorna v) :
    SinRastro k c ∧ (c.dejada k = c.dada ↔ c.entera k) := by
  have he := empieza_paso (k := k) c
  rw [hr] at he
  obtain ⟨-, hk, hw⟩ := he.quieta (no_send_of_abre habre)
  have hw : envios (c.empieza ⟨k, []⟩).2.traza = [] := by
    rcases hw with hw | hw <;> rw [hw] <;> rfl
  cases c with
  | send => exact absurd habre id
  | connect e destino origen =>
      obtain ⟨r, hpar⟩ := fallo_connect hv hr
      obtain ⟨hip, hpuerto, heq⟩ := dejada_connect (comprobado hpar)
      exact ⟨⟨hk, hw, hip, hpuerto⟩, heq⟩
  | listen e escucha remota =>
      have hd := fallo_listen hv hr
      obtain ⟨hip, hpuerto, heq⟩ := @dejada_listen e k.interfaz escucha
      rw [← hd] at hip hpuerto heq
      exact ⟨⟨hk, hw, hip, fun _ => hpuerto⟩, heq⟩

/-- A host with the address 10.0.0.1, where the port 1000 is drawn. -/
def conIPv4 : Entorno :=
  { entornoVacio with
    interfaces := some [⟨"eth0", some (afInet, 0x0a000001)⟩]
    vueltas := [(999, kernelPorDefecto)] }

/-- A connect from any port of any address to no port. -/
def sinDestino : Llamada := .connect conIPv4 ⟨0x0a000002, 0⟩ ⟨0, 0⟩

theorem sinRastro_sinDestino : SinRastro kernelPorDefecto sinDestino ∧
    (sinDestino.dejada kernelPorDefecto = sinDestino.dada ↔ sinDestino.entera kernelPorDefecto) :=
  sinRastro (v := exInva) trivial (by decide) (by decide +kernel)

/-- The call fails, and leaves a port and an IP behind. -/
theorem no_sinRastro : (sinDestino.empieza ⟨kernelPorDefecto, []⟩).1 = .retorna exInva ∧
    sinDestino.dada = ⟨0, 0⟩ ∧ sinDestino.dejada kernelPorDefecto = ⟨0x0a000001, 1000⟩ := by
  decide +kernel

end Ltm.Kernel
