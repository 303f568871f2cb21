import Ltm.Kernel.Restos

/-! # The data in pieces

`t_send` cuts the data into packets of `MAX_DATOS` bytes, the last of what remains, and counts in `int`.
`Exacta` says what its variables should hold after `j` packets, and `Tanda` which buffers the turns of
its loop have filled from one state of the variables to another, whatever waits come between.
-/

namespace Ltm.Kernel
set_option autoImplicit false
set_option maxHeartbeats 250000

/-! ## The counters -/

/-- How many packets `longitud` bytes need: one at least. -/
def partes (longitud : ℕ) : ℕ := max 1 ((longitud + maxDatos - 1) / maxDatos)

/-- The variables of `t_send` hold their exact values after `j` packets of `longitud` bytes. -/
structure Exacta (longitud j : ℕ) (l : SendLocal) : Prop where
  numeroSends : l.numeroSends + j = partes longitud
  numeroSecuencia : l.numeroSecuencia = j
  datosATransmitir : l.datosATransmitir = (longitud - maxDatos * j : ℕ)
  datosEnviados : l.datosEnviados = (min longitud (maxDatos * j) : ℕ)
  tamanho : l.tamanho = (min maxDatos (longitud - maxDatos * min j (partes longitud - 1)) : ℕ)

variable {longitud j n : ℕ} {l l' l'' : SendLocal}

theorem aInt_of_lt {n : ℕ} (h : n < 2147483648) : aInt n = n := by
  rw [aInt, Int.bmod_def]
  split <;> omega

theorem partes_of_le (h : longitud ≤ maxDatos) : partes longitud = 1 := by
  simp only [maxDatos] at h
  simp only [partes, maxDatos]
  omega

theorem partes_of_gt (h : maxDatos < longitud) :
    partes longitud = longitud / maxDatos + if longitud % maxDatos > 0 then 1 else 0 := by
  simp only [maxDatos] at h
  simp only [partes, maxDatos]
  split <;> omega

/-- The number of packets is the least that holds the data. -/
theorem le_mul_partes (longitud : ℕ) : longitud ≤ maxDatos * partes longitud := by
  simp only [partes, maxDatos]
  omega

theorem mul_pred_partes_lt (longitud : ℕ) (h : 1 < partes longitud) : maxDatos * (partes longitud - 1) < longitud := by
  simp only [partes, maxDatos] at h ⊢
  omega

theorem cuantosSends_eq {longitud : UInt64} (h : longitud.toNat < 2147483648) :
    cuantosSends longitud = partes longitud.toNat := by
  unfold cuantosSends
  by_cases hle : longitud.toNat ≤ maxDatos
  · rw [if_pos hle, partes_of_le hle]
  · have hdiv : longitud.toNat / maxDatos < 2097152 := by
      simp only [maxDatos]
      omega
    have hcast : ((longitud.toNat / maxDatos : ℕ) : Int) +
        (if longitud.toNat % maxDatos > 0 then 1 else 0) = (partes longitud.toNat : ℕ) := by
      rw [partes_of_gt (by omega)]
      split <;> simp
    have hpartes : partes longitud.toNat < 2147483648 := by
      rw [partes_of_gt (by omega)]
      split <;> omega
    rw [if_neg hle, aInt_of_lt (by omega), hcast, aInt_of_lt hpartes, Int.toNat_natCast]

theorem exacta_nuevo (id : Int) (datos : List UInt8) {longitud : UInt64} (c : Conexion)
    (h : longitud.toNat < 2147483648) : Exacta longitud.toNat 0 (.nuevo id datos longitud c) := by
  refine ⟨cuantosSends_eq h, rfl, ?_, ?_, ?_⟩
  · rw [SendLocal.nuevo, Nat.mul_zero, Nat.sub_zero, aInt_of_lt h]
  · rw [Nat.mul_zero, Nat.min_zero]
    rfl
  · rw [Nat.zero_min, Nat.mul_zero, Nat.sub_zero]
    show (if longitud.toNat ≤ maxDatos then (longitud.toNat : Int) else maxDatos) = _
    split <;> omega

/-- A turn of the loop that sends. -/
theorem Exacta.avanza (h : Exacta longitud j l) (hn : l.numeroSends = n + 1)
    (hlong : longitud < 2147483648) : Exacta longitud (j + 1) (l.avanza n) := by
  obtain ⟨hsends, hsec, hresto, henv, htam⟩ := h
  have hj : min j (partes longitud - 1) = j := by omega
  rw [hj] at htam
  have hmul : maxDatos * (j + 1) = maxDatos * j + maxDatos := Nat.mul_succ _ _
  have hresto' : l.datosATransmitir - l.tamanho = (longitud - maxDatos * (j + 1) : ℕ) := by
    rw [hresto, htam, hmul]
    omega
  have henv' : l.datosEnviados + l.tamanho = (min longitud (maxDatos * (j + 1)) : ℕ) := by
    rw [henv, htam, hmul]
    omega
  have hresto'' : aInt (l.datosATransmitir - l.tamanho) = (longitud - maxDatos * (j + 1) : ℕ) := by
    rw [hresto']
    exact aInt_of_lt (by omega)
  refine ⟨?_, ?_, hresto'', ?_, ?_⟩
  · show n + (j + 1) = partes longitud
    omega
  · show l.numeroSecuencia + 1 = ((j + 1 : ℕ) : Int)
    rw [hsec]
    rfl
  · show aInt (l.datosEnviados + l.tamanho) = _
    rw [henv']
    exact aInt_of_lt (by omega)
  · show (if n = 1 then aInt (l.datosATransmitir - l.tamanho) else l.tamanho) = _
    by_cases h1 : n = 1
    · have hlast : min (j + 1) (partes longitud - 1) = j + 1 := by omega
      have hle := le_mul_partes longitud
      have hpartes : partes longitud = j + 1 + 1 := by omega
      rw [hpartes, Nat.mul_succ] at hle
      rw [if_pos h1, hresto'', hlast]
      omega
    · rw [if_neg h1, htam]
      by_cases h0 : n = 0
      · have hlast : min (j + 1) (partes longitud - 1) = j := by omega
        rw [hlast]
      · have hlast : min (j + 1) (partes longitud - 1) = j + 1 := by omega
        have hlt : maxDatos * (j + 1) + maxDatos ≤ maxDatos * (partes longitud - 1) := by
          rw [← Nat.mul_succ]
          exact Nat.mul_le_mul_left _ (by omega)
        have hlong' := mul_pred_partes_lt longitud (by omega)
        rw [hlast]
        omega

/-! ## The turns of the loop -/

/-- The data that the packet says it carries. -/
def Tpdu.carga (p : Tpdu) : List UInt8 := p.datos.take p.cabecera.tamanhoDatos.toNat

/-- Turns of the loop fill the buffers `bs`, in this order, and take the variables from `l` to `l'`. -/
inductive Tanda : SendLocal → List BufPkt → SendLocal → Prop
  | nil (l : SendLocal) : Tanda l [] l
  | cons {l l' : SendLocal} {n : ℕ} {bs : List BufPkt} (b : BufPkt) (idDestino : Int)
      (hn : l.numeroSends = n + 1) (h : Tanda (l.avanza n) bs l') :
      Tanda l (bufferDatos b l idDestino :: bs) l'

/-- The buffers `bs` hold the next packets of `datos` after the first `j`; `resto` is still to be sent. -/
structure Reparte (longitud j : ℕ) (datos resto : List UInt8) (bs : List BufPkt) : Prop where
  tipo : ∀ b ∈ bs, b.pkt.cabecera.tipo = tipoDatos
  cargas : (bs.flatMap fun b => b.pkt.carga) ++ resto = datos
  cabeceras : ∀ b ∈ bs, (b.pkt.carga.length : Int) = b.pkt.cabecera.tamanhoDatos
  tamanhos : ∀ (i : ℕ) (b : BufPkt), bs[i]? = some b →
    b.pkt.carga.length = min maxDatos (longitud - maxDatos * (j + i))
  numeros : bs.map BufPkt.numSecuencia = (List.range' j bs.length).map Nat.cast

variable {bs bs' : List BufPkt}

theorem Tanda.append (h : Tanda l bs l') (h' : Tanda l' bs' l'') : Tanda l (bs ++ bs') l'' := by
  induction h with
  | nil => exact h'
  | cons b idDestino hn _ ih => exact .cons b idDestino hn (ih h')

theorem Tanda.id_eq (h : Tanda l bs l') : l'.id = l.id := by
  induction h with
  | nil => rfl
  | cons b idDestino hn _ ih => exact ih

theorem Tanda.exacta (h : Tanda l bs l') (hl : Exacta longitud j l) (hlong : longitud < 2147483648) :
    Exacta longitud (j + bs.length) l' := by
  induction h generalizing j with
  | nil => exact hl
  | cons b idDestino hn _ ih =>
      have hresto := ih (hl.avanza hn hlong)
      rwa [List.length_cons, ← Nat.succ_add_eq_add_succ]

/-- Once no packets are left. -/
theorem Tanda.fin (h : Tanda l bs l') (hl : Exacta longitud 0 l) (hlong : longitud < 2147483648)
    (hsends : l'.numeroSends = 0) : bs.length = partes longitud ∧ l'.datosEnviados = longitud := by
  obtain ⟨hnum, -, -, henv, -⟩ := h.exacta hl hlong
  have hle := le_mul_partes longitud
  rw [Nat.zero_add, hsends, Nat.zero_add] at hnum
  rw [Nat.zero_add, hnum, Nat.min_eq_left hle] at henv
  exact ⟨hnum, henv⟩

/-- A packet carries what its turn of the loop takes off the data. -/
theorem carga_bufferDatos (b : BufPkt) (idDestino : Int) (h : l.tamanho.toNat ≤ l.datos.length) :
    (bufferDatos b l idDestino).pkt.carga = l.datos.take l.tamanho.toNat := by
  rw [pkt_bufferDatos]
  refine List.take_left' ?_
  rw [List.length_take]
  exact Nat.min_eq_left h

/-- The data to be sent are as many as `datos_a_transmitir` says. -/
theorem Tanda.reparte (h : Tanda l bs l') (hl : Exacta longitud j l) (hlong : longitud < 2147483648)
    (hdatos : l.datos.length = longitud - maxDatos * j) :
    Reparte longitud j l.datos l'.datos bs ∧ l'.datos.length = longitud - maxDatos * (j + bs.length) := by
  induction h generalizing j with
  | nil => exact ⟨⟨by simp, rfl, by simp, by simp, rfl⟩, hdatos⟩
  | @cons l l' n bs b idDestino hn _ ih =>
      have hj : min j (partes longitud - 1) = j := by
        have hsends := hl.numeroSends
        omega
      have htam : l.tamanho = (min maxDatos (longitud - maxDatos * j) : ℕ) := by
        rw [hl.tamanho, hj]
      have htoNat : l.tamanho.toNat = min maxDatos (longitud - maxDatos * j) := by
        rw [htam, Int.toNat_natCast]
      have hcarga := carga_bufferDatos b idDestino (l := l) (by omega)
      have hlargo : (bufferDatos b l idDestino).pkt.carga.length =
          min maxDatos (longitud - maxDatos * j) := by
        rw [hcarga, List.length_take, htoNat, hdatos]
        omega
      have hdrop : (l.avanza n).datos = l.datos.drop l.tamanho.toNat := rfl
      obtain ⟨⟨htipo, hcargas, hcab, htams, hnums⟩, hresto⟩ := ih (hl.avanza hn hlong) (by
        rw [hdrop, List.length_drop, hdatos, htoNat, Nat.mul_succ]
        omega)
      refine ⟨⟨?_, ?_, ?_, ?_, ?_⟩, ?_⟩
      · rintro c (_ | ⟨_, hc⟩)
        · rfl
        · exact htipo c hc
      · rw [List.flatMap_cons, List.append_assoc, hcargas, hcarga, hdrop, List.take_append_drop]
      · rintro c (_ | ⟨_, hc⟩)
        · rw [hlargo, pkt_bufferDatos]
          exact htam.symm
        · exact hcab c hc
      · rintro (_ | i) c hc
        · obtain rfl := Option.some.inj hc
          exact hlargo
        · rw [htams i c hc]
          congr 3
          omega
      · rw [List.map_cons, hnums, List.length_cons, List.range'_succ, List.map_cons]
        refine congrArg (· :: _) ?_
        exact hl.numeroSecuencia
      · rw [hresto, List.length_cons]
        congr 2
        omega

/-! ## Whole calls -/

/-- The variables each time the loop is at its head, in a section that finds the kernel `k`. -/
def cabezas : ℕ → SendLocal → KernelShm → List SendLocal
  | 0, l, _ => [l]
  | n + 1, l, k =>
    if (k.CXs l.id).TX.length < k.numBufPkts.toNat then l :: cabezas n (l.avanza n) (k.trasEnvio l)
    else [l]

/-- A section of `t_send`. -/
structure Tramo where
  antes : KernelShm
  locales : List SendLocal
  despues : Mundo

/-- From `paso` on a `t_send` passes through the sections `ts`, each in any kernel in which the wait has
not ended with EXNET, and returns `v`. -/
inductive Acaba : Paso → List Tramo → Int → Prop
  | retorna (v : Int) : Acaba (.retorna v) [] v
  | despierta {i : Int} {l : SendLocal} {k : KernelShm} {ts : List Tramo} {v : Int}
      (hnet : (k.CXs l.id).resultadoPrimitiva ≠ exNet) (h : Acaba (tSendSigue l ⟨k, []⟩).1 ts v) :
      Acaba (.duerme i (.send l)) (⟨k, cabezas l.numeroSends l k, (tSendSigue l ⟨k, []⟩).2⟩ :: ts) v

/-- A `t_send` on an established connection that returns `v` after the sections `ts`. -/
inductive EnvioEntero (e : Entorno) (id : Int) (datos : List UInt8) (longitud : UInt64) :
    List Tramo → Int → Prop
  | mk {k : KernelShm} {ts : List Tramo} {v : Int} (hk : ¬e.getKernel < 0)
      (hest : (k.CXs id).estadoCx = .established)
      (h : Acaba (tSend e id (some datos) longitud ⟨k, []⟩).1 ts v) :
      EnvioEntero e id datos longitud
        (⟨k, cabezas (cuantosSends longitud) (.nuevo id datos longitud (k.CXs id)) k,
          (tSend e id (some datos) longitud ⟨k, []⟩).2⟩ :: ts) v

/-- The packets that the section gives to `enviar_tpdu`. -/
def Tramo.paquetes (t : Tramo) : List Tpdu := (envios t.despues.traza).map Prod.snd

/-- The buffers that the section has put at the end of `TX`. -/
def Tramo.encolados (id : Int) (t : Tramo) : List BufPkt :=
  (t.despues.kernel.CXs id).TX.drop (t.antes.CXs id).TX.length

/-- The section only adds to `TX`, the buffer of each packet that it sends, and only while there is
room. -/
structure Tramo.Encola (id : Int) (t : Tramo) : Prop where
  TX : (t.despues.kernel.CXs id).TX = (t.antes.CXs id).TX ++ t.encolados id
  paquetes : t.paquetes = (t.encolados id).map BufPkt.pkt
  caben : ∀ j < (t.encolados id).length, (t.antes.CXs id).TX.length + j < t.antes.numBufPkts.toNat

/-- What a section of `t_send` ends in when it leaves its variables as `l`. -/
def Deja (paso : Paso) (l : SendLocal) : Prop :=
  paso = .retorna l.datosEnviados ∧ l.numeroSends = 0 ∨ paso = .duerme l.id (.send l)

theorem Deja.retorna {v : Int} (h : Deja (.retorna v) l) : l.numeroSends = 0 ∧ v = l.datosEnviados := by
  rcases h with ⟨hv, hsends⟩ | hv
  · exact ⟨hsends, Paso.retorna.inj hv⟩
  · exact absurd hv (by simp)

theorem Deja.duerme {i : Int} (h : Deja (.duerme i (.send l')) l) : l' = l := by
  rcases h with ⟨hv, -⟩ | hv
  · exact absurd hv (by simp)
  · exact Local.send.inj (Paso.duerme.inj hv).2

/-- The loop, entered with the variables `l`, fills `bs` and leaves the variables `l'`. -/
structure Manda (k : KernelShm) (l : SendLocal) (t : List Accion) (r : Paso × Mundo) (bs : List BufPkt)
    (l' : SendLocal) : Prop where
  tanda : Tanda l bs l'
  TX : (r.2.kernel.CXs l.id).TX = (k.CXs l.id).TX ++ bs
  envia : envios r.2.traza = envios t ++ bs.map fun b => (l.tsapDestino.ip, b.pkt)
  caben : ∀ j < bs.length, (k.CXs l.id).TX.length + j < k.numBufPkts.toNat
  deja : Deja r.1 l'

variable {k k' : KernelShm} {t : List Accion} {r : Paso × Mundo} {ts : List Tramo} {v : Int}

theorem bucleSend_manda (k : KernelShm) (t : List Accion) (hn : l.numeroSends = n) :
    ∃ bs l', Manda k l t (bucleSend n l ⟨k, t⟩) bs l' := by
  induction n generalizing l k t with
  | zero =>
      refine ⟨[], l, .nil l, ?_, ?_, by simp, ?_⟩
      · rw [bucleSend, desbloquearAcceso_bind, pure_run, List.append_nil]
      · rw [bucleSend, desbloquearAcceso_bind, pure_run, envios_append]
        rfl
      · rw [bucleSend, desbloquearAcceso_bind, pure_run]
        exact .inl ⟨rfl, hn⟩
  | succ n ih =>
      by_cases h : (k.CXs l.id).TX.length < k.numBufPkts.toNat
      · let b := bufferDatos (proximoBuffer k) l (k.CXs l.id).idDestino
        obtain ⟨bs, l', htanda, hTX, henv, hcaben, hdeja⟩ := @ih (l.avanza n) (k.trasEnvio l)
          (t ++ [.acceso l.id, .acceso l.id, .acceso l.id, .enviarTpdu l.tsapDestino.ip b.pkt]) rfl
        have hid : (l.avanza n).id = l.id := rfl
        have hnum : (k.trasEnvio l).numBufPkts = k.numBufPkts := rfl
        rw [hid, trasEnvio_self] at hTX hcaben
        rw [bucleSend_turno h]
        refine ⟨b :: bs, l', .cons _ _ hn htanda, ?_, ?_, ?_, hdeja⟩
        · rw [hTX, List.append_assoc, List.singleton_append]
        · rw [henv, envios_append, List.append_assoc]
          rfl
        · rintro (_ | j) hj
          · exact h
          · have hj' := hcaben j (Nat.lt_of_succ_lt_succ hj)
            rw [List.length_append, List.length_singleton, hnum] at hj'
            omega
      · have hTX := congrArg Conexion.TX
          (KernelShm.conCx_self k l.id fun c => { c with primitivaDormida := true })
        rw [bucleSend_duerme h]
        refine ⟨[], l, .nil l, ?_, ?_, by simp, .inr rfl⟩
        · rw [List.append_nil]
          exact hTX
        · rw [envios_append]
          rfl

/-- What comes before the loop sends nothing and leaves `TX` as it is. -/
theorem Manda.desde {bs : List BufPkt} (h : Manda k' l t r bs l') (ht : envios t = [])
    (hTX : (k'.CXs l.id).TX = (k.CXs l.id).TX) (hnum : k'.numBufPkts = k.numBufPkts) :
    Manda k l [] r bs l' := by
  refine ⟨h.tanda, hTX ▸ h.TX, ?_, hTX ▸ hnum ▸ h.caben, h.deja⟩
  rw [h.envia, ht]
  rfl

theorem tSend_manda {e : Entorno} {id : Int} (datos : List UInt8) (longitud : UInt64)
    (hk : ¬e.getKernel < 0) (hest : (k.CXs id).estadoCx = .established) :
    ∃ bs l', Manda k (.nuevo id datos longitud (k.CXs id)) []
      (tSend e id (some datos) longitud ⟨k, []⟩) bs l' := by
  unfold tSend
  rw [if_neg hk]
  dsimp only
  rw [bloquearAcceso_bind, leeCx_bind, if_neg (not_not.mpr hest), leeCx_bind]
  obtain ⟨bs, l', h⟩ := @bucleSend_manda _ (.nuevo id datos longitud (k.CXs id))
    { k with semaforo := true } [.bloquearAcceso, .acceso id, .acceso id] rfl
  exact ⟨bs, l', h.desde rfl rfl rfl⟩

theorem tSendSigue_manda (l : SendLocal) (hnet : (k.CXs l.id).resultadoPrimitiva ≠ exNet) :
    ∃ bs l', Manda k l [] (tSendSigue l ⟨k, []⟩) bs l' := by
  unfold tSendSigue
  rw [bloquearAcceso_bind, cambiaCx_bind, leeCx_bind, KernelShm.conCx_self, if_neg hnet]
  obtain ⟨bs, l', h⟩ := @bucleSend_manda _ l
    (({ k with semaforo := true }).conCx l.id fun c => { c with primitivaDormida := false })
    [.bloquearAcceso, .acceso l.id, .acceso l.id] rfl
  refine ⟨bs, l', h.desde rfl ?_ rfl⟩
  rw [KernelShm.conCx_self]

variable {paso : Paso}

theorem Manda.encola (h : Manda k l [] r bs l') (locales : List SendLocal) :
    (⟨k, locales, r.2⟩ : Tramo).encolados l.id = bs ∧ (⟨k, locales, r.2⟩ : Tramo).Encola l.id := by
  have hbs : (⟨k, locales, r.2⟩ : Tramo).encolados l.id = bs := by
    rw [Tramo.encolados, h.TX]
    exact List.drop_left
  refine ⟨hbs, ?_, ?_, ?_⟩
  · rw [hbs]
    exact h.TX
  · rw [hbs, Tramo.paquetes, h.envia, List.map_append, List.map_map]
    rfl
  · rw [hbs]
    exact h.caben

/-- A call that ends has filled its buffers by turns of the loop alone, whatever its waits were. -/
theorem Acaba.tanda (h : Acaba paso ts v) (hd : Deja paso l) :
    ∃ l', Tanda l (ts.flatMap (Tramo.encolados l.id)) l' ∧ l'.numeroSends = 0 ∧ v = l'.datosEnviados ∧
      ∀ t ∈ ts, t.Encola l.id := by
  induction h generalizing l with
  | retorna v =>
      obtain ⟨hsends, hv⟩ := hd.retorna
      exact ⟨l, .nil l, hsends, hv, by simp⟩
  | @despierta i l₀ k ts v hnet _ ih =>
      obtain rfl := hd.duerme
      obtain ⟨bs, l', hm⟩ := tSendSigue_manda l₀ hnet
      obtain ⟨l'', htanda, hsends, hres, hencola⟩ := ih hm.deja
      obtain ⟨hbs, hprimera⟩ := hm.encola (cabezas l₀.numeroSends l₀ k)
      rw [hm.tanda.id_eq] at htanda hencola
      refine ⟨l'', ?_, hsends, hres, ?_⟩
      · rw [List.flatMap_cons, hbs]
        exact hm.tanda.append htanda
      · rintro t (_ | ⟨_, ht⟩)
        · exact hprimera
        · exact hencola t ht

variable {e : Entorno} {id : Int} {datos : List UInt8} {longitud : UInt64}

/-- The first section of a call, and what follows it. -/
theorem EnvioEntero.primera (h : EnvioEntero e id datos longitud ts v) :
    ∃ (k : KernelShm) (r : Paso × Mundo) (ts' : List Tramo) (bs : List BufPkt) (l' : SendLocal),
      ts = ⟨k, cabezas (cuantosSends longitud) (.nuevo id datos longitud (k.CXs id)) k, r.2⟩ :: ts' ∧
        Manda k (.nuevo id datos longitud (k.CXs id)) [] r bs l' ∧ Acaba r.1 ts' v := by
  cases h with
  | @mk k ts v hk hest h =>
      obtain ⟨bs, l', hm⟩ := tSend_manda datos longitud hk hest
      exact ⟨k, _, ts, bs, l', rfl, hm, h⟩

theorem EnvioEntero.tanda (h : EnvioEntero e id datos longitud ts v) : ∃ (c : Conexion) (l' : SendLocal),
    Tanda (.nuevo id datos longitud c) (ts.flatMap (Tramo.encolados id)) l' ∧ l'.numeroSends = 0 ∧
      v = l'.datosEnviados ∧ ∀ t ∈ ts, t.Encola id := by
  obtain ⟨k, r, ts', bs, l', rfl, hm, h⟩ := h.primera
  obtain ⟨l'', htanda, hsends, hres, hencola⟩ := h.tanda hm.deja
  obtain ⟨hbs, hprimera⟩ := hm.encola (cabezas (cuantosSends longitud)
    (.nuevo id datos longitud (k.CXs id)) k)
  have hid : l'.id = id := hm.tanda.id_eq
  rw [hid] at htanda hencola
  refine ⟨k.CXs id, l'', ?_, hsends, hres, ?_⟩
  · have hbs' : Tramo.encolados id _ = bs := hbs
    rw [List.flatMap_cons, hbs']
    exact hm.tanda.append htanda
  · rintro t (_ | ⟨_, ht⟩)
    · exact hprimera
    · exact hencola t ht

/-- The packets of a whole call. -/
def paquetesDe (ts : List Tramo) : List Tpdu := ts.flatMap Tramo.paquetes

/-- The call has split `datos` into packets and sent them, its buffers numbered in `TX`. -/
structure Fragmenta (id : Int) (datos : List UInt8) (ts : List Tramo) (v : Int) : Prop where
  tipo : ∀ p ∈ paquetesDe ts, p.cabecera.tipo = tipoDatos
  cargas : (paquetesDe ts).flatMap Tpdu.carga = datos
  cuantos : (paquetesDe ts).length = partes datos.length
  tamanhos : ∀ p ∈ paquetesDe ts, (p.carga.length : Int) = p.cabecera.tamanhoDatos ∧
    p.carga.length ≤ maxDatos
  llenos : ∀ (i : ℕ) (p : Tpdu), (paquetesDe ts)[i]? = some p → i + 1 < (paquetesDe ts).length →
    p.carga.length = maxDatos
  encola : ∀ t ∈ ts, t.Encola id
  numeros : (ts.flatMap (Tramo.encolados id)).map BufPkt.numSecuencia =
    (List.range (partes datos.length)).map Nat.cast
  retorna : v = datos.length

theorem paquetesDe_eq (h : ∀ t ∈ ts, t.Encola id) :
    paquetesDe ts = (ts.flatMap (Tramo.encolados id)).map BufPkt.pkt := by
  rw [paquetesDe, List.map_flatMap]
  exact List.flatMap_congr fun t ht => (h t ht).paquetes

/-- Whatever its waits are and whatever they find in `TX`, a `t_send` that ends without EXNET has sent
the data once, in order, in pieces of `MAX_DATOS` bytes and one of the rest. -/
theorem fragmenta (h : EnvioEntero e id datos longitud ts v) (hlen : datos.length = longitud.toNat)
    (hlong : longitud.toNat < 2147483648) : Fragmenta id datos ts v := by
  obtain ⟨c, l', htanda, hsends, hres, hencola⟩ := h.tanda
  have hnuevo := exacta_nuevo id datos c hlong
  obtain ⟨hrep, hresto⟩ := htanda.reparte hnuevo hlong hlen
  obtain ⟨hcuantos, henv⟩ := htanda.fin hnuevo hlong hsends
  rw [← hlen] at hcuantos
  have hle := le_mul_partes datos.length
  rw [Nat.zero_add, hcuantos, ← hlen] at hresto
  have hvacio : l'.datos = [] := List.eq_nil_of_length_eq_zero (by omega)
  have hpkts := paquetesDe_eq hencola
  have hcargas := hrep.cargas
  have hnumeros := hrep.numeros
  rw [hvacio, List.append_nil] at hcargas
  rw [hcuantos, ← List.range_eq_range'] at hnumeros
  refine ⟨?_, ?_, ?_, ?_, ?_, hencola, hnumeros, by rw [hres, henv, hlen]⟩
  · rw [hpkts, List.forall_mem_map]
    exact hrep.tipo
  · rw [hpkts, List.flatMap_map]
    exact hcargas
  · rw [hpkts, List.length_map, hcuantos]
  · rw [hpkts, List.forall_mem_map]
    intro b hb
    obtain ⟨i, hi⟩ := List.mem_iff_getElem?.mp hb
    refine ⟨hrep.cabeceras b hb, ?_⟩
    rw [hrep.tamanhos i b hi]
    exact Nat.min_le_left _ _
  · intro i p hp hi
    rw [hpkts, List.length_map, hcuantos] at hi
    rw [hpkts, List.getElem?_map] at hp
    obtain ⟨b, hb, rfl⟩ := Option.map_eq_some_iff.mp hp
    have hlleno := mul_pred_partes_lt datos.length (by omega)
    have hmul : maxDatos * (0 + i) + maxDatos ≤ maxDatos * (partes datos.length - 1) := by
      rw [← Nat.mul_succ]
      exact Nat.mul_le_mul_left _ (by omega)
    rw [hrep.tamanhos i b hb, ← hlen]
    omega

/-- The default kernel with room for one packet, where cell 0 is connected. -/
def kernelConectado : KernelShm :=
  { kernelPorDefecto with
    numBufPkts := 1
    CXs := fun i => if i = 0 then { Conexion.nula with estadoCx := .established } else .nula }

/-- There 1025 bytes take a wait. -/
theorem envioEntero_1025 :
    ∃ ts, EnvioEntero entornoVacio 0 (List.replicate 1025 7) 1025 ts 1025 := by
  let l := SendLocal.nuevo 0 (List.replicate 1025 7) 1025 (kernelConectado.CXs 0)
  have hduerme : (tSend entornoVacio 0 (some (List.replicate 1025 7)) 1025 ⟨kernelConectado, []⟩).1 =
      .duerme 0 (.send (l.avanza 1)) := by decide +kernel
  have hretorna : (tSendSigue (l.avanza 1) ⟨kernelConectado, []⟩).1 = .retorna 1025 := by
    decide +kernel
  have hacaba : Acaba (.duerme 0 (.send (l.avanza 1))) [⟨kernelConectado,
      cabezas 1 (l.avanza 1) kernelConectado, (tSendSigue (l.avanza 1) ⟨kernelConectado, []⟩).2⟩] 1025 :=
    .despierta (by decide) (hretorna ▸ .retorna 1025)
  exact ⟨_, .mk (by decide) (by decide) (hduerme ▸ hacaba)⟩

theorem fragmenta_1025 : ∃ ts, EnvioEntero entornoVacio 0 (List.replicate 1025 7) 1025 ts 1025 ∧
    Fragmenta 0 (List.replicate 1025 7) ts 1025 := by
  obtain ⟨ts, h⟩ := envioEntero_1025
  exact ⟨ts, h, fragmenta h List.length_replicate (by decide)⟩

/-! ## The arithmetic -/

/-- The errors of `t_send`. -/
def erroresSend : List Int := [exKernel, exNoData, exBadTid, exNet]

/-- The counters are exact at each turn of the loop, and the result can only be the length. -/
structure Aritmetica (longitud : UInt64) (ts : List Tramo) (v : Int) : Prop where
  contadores : ∀ t ∈ ts, ∀ l ∈ t.locales, ∃ j, Exacta longitud.toNat j l
  retorna : UInt64.ofInt v = longitud
  sinError : ∀ c ∈ erroresSend, UInt64.ofInt v ≠ UInt64.ofInt c

theorem aInt_lt (n : Int) : aInt n < 2147483648 := by
  rw [aInt, Int.bmod_def]
  split <;> omega

theorem cabeza_mem (n : ℕ) (l : SendLocal) (k : KernelShm) : l ∈ cabezas n l k := by
  cases n with
  | zero => exact List.mem_singleton_self l
  | succ n =>
      rw [cabezas]
      split
      · exact List.mem_cons_self
      · exact List.mem_singleton_self l

/-- The loop comes to its head with each of these variables. -/
theorem bucleSend_cabezas (t : List Accion) (hn : l.numeroSends = n) (h : l' ∈ cabezas n l k) :
    ∃ k' t', bucleSend n l ⟨k, t⟩ = bucleSend l'.numeroSends l' ⟨k', t'⟩ := by
  induction n generalizing l k t with
  | zero =>
      obtain rfl := List.mem_singleton.mp h
      exact ⟨k, t, by rw [hn]⟩
  | succ n ih =>
      rw [cabezas] at h
      split at h
      · next hcabe =>
        rcases List.mem_cons.mp h with rfl | h
        · exact ⟨k, t, by rw [hn]⟩
        · rw [bucleSend_turno hcabe]
          exact ih _ rfl h
      · obtain rfl := List.mem_singleton.mp h
        exact ⟨k, t, by rw [hn]⟩

theorem Exacta.cabezas {longitud : ℕ} (hl : Exacta longitud j l) (hn : l.numeroSends = n)
    (hlong : longitud < 2147483648) : ∀ l' ∈ cabezas n l k, ∃ j', Exacta longitud j' l' := by
  induction n generalizing j l k with
  | zero =>
      intro l' hl'
      obtain rfl := List.mem_singleton.mp hl'
      exact ⟨j, hl⟩
  | succ n ih =>
      intro l' hl'
      rw [Kernel.cabezas] at hl'
      split at hl'
      · rcases List.mem_cons.mp hl' with rfl | hl'
        · exact ⟨j, hl⟩
        · exact ih (hl.avanza hn hlong) rfl l' hl'
      · obtain rfl := List.mem_singleton.mp hl'
        exact ⟨j, hl⟩

/-- The counters stay exact over the waits. -/
theorem Acaba.exacta {longitud : ℕ} (h : Acaba paso ts v) (hd : Deja paso l) (hl : Exacta longitud j l)
    (hlong : longitud < 2147483648) : ∀ t ∈ ts, ∀ l' ∈ t.locales, ∃ j', Exacta longitud j' l' := by
  induction h generalizing l j with
  | retorna v => simp
  | @despierta i l₀ k ts v hnet _ ih =>
      obtain rfl := hd.duerme
      obtain ⟨bs, l', hm⟩ := tSendSigue_manda l₀ hnet
      rintro t (_ | ⟨_, ht⟩)
      · exact hl.cabezas rfl hlong
      · exact ih hm.deja (hm.tanda.exacta hl hlong) t ht

theorem EnvioEntero.exacta (h : EnvioEntero e id datos longitud ts v)
    (hlong : longitud.toNat < 2147483648) :
    ∀ t ∈ ts, ∀ l ∈ t.locales, ∃ j, Exacta longitud.toNat j l := by
  obtain ⟨k, r, ts', bs, l', rfl, hm, h⟩ := h.primera
  have hnuevo := exacta_nuevo id datos (k.CXs id) hlong
  rintro t (_ | ⟨_, ht⟩)
  · exact hnuevo.cabezas rfl hlong
  · exact h.exacta hm.deja (hm.tanda.exacta hnuevo hlong) hlong t ht

/-- What a call without errors returns. -/
theorem EnvioEntero.retorna (h : EnvioEntero e id datos longitud ts v)
    (hlong : longitud.toNat < 2147483648) : v = longitud.toNat := by
  obtain ⟨c, l', htanda, hsends, hres, -⟩ := h.tanda
  rw [hres, (htanda.fin (exacta_nuevo id datos c hlong) hlong hsends).2]

theorem ofInt_toNat (n : UInt64) : UInt64.ofInt n.toNat = n := by
  have hlt := n.toNat_lt
  have hmod : ((n.toNat : Int) % 2 ^ 64).toNat = n.toNat := by omega
  rw [UInt64.ofInt, hmod, UInt64.ofNat_toNat]

theorem toNat_ofInt_error : ∀ c ∈ erroresSend, 2147483648 ≤ (UInt64.ofInt c).toNat := by
  decide

/-- The arithmetic of a `t_send` that ends without errors is exact just if the length is an `int`. -/
theorem aritmetica_iff (h : EnvioEntero e id datos longitud ts v) :
    Aritmetica longitud ts v ↔ longitud.toNat < 2147483648 := by
  constructor
  · intro ha
    obtain ⟨k, r, ts', bs, l', rfl, -, -⟩ := h.primera
    obtain ⟨j, hexacta⟩ := ha.contadores _ List.mem_cons_self (.nuevo id datos longitud (k.CXs id))
      (cabeza_mem _ _ k)
    have hj : ((0 : ℕ) : Int) = j := hexacta.numeroSecuencia
    have hresto := hexacta.datosATransmitir
    have hlt := aInt_lt longitud.toNat
    simp only [SendLocal.nuevo, ← Int.natCast_inj.mp hj, Nat.mul_zero, Nat.sub_zero] at hresto
    omega
  · intro hlong
    have hv := h.retorna hlong
    refine ⟨h.exacta hlong, ?_, fun c hc hno => ?_⟩
    · rw [hv, ofInt_toNat]
    · have herror := toNat_ofInt_error c hc
      rw [← hno, hv, ofInt_toNat] at herror
      omega

theorem aritmetica_1025 : ∃ ts, EnvioEntero entornoVacio 0 (List.replicate 1025 7) 1025 ts 1025 ∧
    Aritmetica 1025 ts 1025 := by
  obtain ⟨ts, h⟩ := envioEntero_1025
  exact ⟨ts, h, (aritmetica_iff h).mpr (by decide)⟩

/-- Of 2^41 bytes nothing is sent, and 0 is returned. -/
theorem no_aritmetica : ∃ ts, EnvioEntero entornoVacio 0 (List.replicate 2199023255552 7)
    2199023255552 ts 0 ∧ ¬Aritmetica 2199023255552 ts 0 := by
  have hretorna : ∀ datos, (tSend entornoVacio 0 (some datos) 2199023255552
      ⟨kernelConectado, []⟩).1 = .retorna 0 := fun datos => rfl
  have hacaba : Acaba (.retorna 0) [] 0 := .retorna 0
  refine ⟨_, .mk (k := kernelConectado) (by decide) (by decide) (hretorna _ ▸ hacaba), fun ha => ?_⟩
  exact absurd ha.retorna (by decide)

end Ltm.Kernel
