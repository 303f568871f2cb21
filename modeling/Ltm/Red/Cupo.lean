import Ltm.Red.Lectura
import Ltm.Red.Parejas
import Ltm.Kernel.Fragmentos
import Ltm.Nodo.Traslado
import Ltm.Nodo.Vistas
import Mathlib.Algebra.Order.BigOperators.Group.List

/-! # What a connection can send

`t_send` puts each DATOS packet into the `TX` list of its cell, and only while that has room. A positive CC
would take one out again, but none comes to an ESTABLISHED cell while the packets are read as they were
built. So a cell sends in a whole run as many as are in its list, at most `NUM_BUF_PKTS` (`cupo`), and a
`t_send` of more packets than that does not return (`sinVuelta`).
-/

namespace Ltm.Kernel
set_option autoImplicit false
set_option maxHeartbeats 250000

/-! ## DATOS packets in a list and in a trace -/

def datosEn (TX : List BufPkt) : ℕ := TX.countP fun b => b.pkt.cabecera.tipo = tipoDatos

/-- The DATOS packets of the cell `i` that a step gives to `enviar_tpdu`. -/
def datosDe (i : Int) (w : List Accion) : ℕ :=
  (envios w).countP fun p => p.2.cabecera.tipo = tipoDatos ∧ p.2.cabecera.idLocal = i

/-- What a step with the trace `w` does to the cell `i`. -/
structure Apunta (k k' : KernelShm) (w : List Accion) (i : Int) : Prop where
  resultado : (k'.CXs i).resultadoPrimitiva = (k.CXs i).resultadoPrimitiva
  datos : datosEn (k'.CXs i).TX = datosEn (k.CXs i).TX + datosDe i w
  abierta : (k.CXs i).estadoCx = .established → (k'.CXs i).estadoCx = .established
  nuevos : datosDe i w ≠ 0 → (k.CXs i).estadoCx = .established
  caben : (k.CXs i).estadoCx = .established →
    (k'.CXs i).TX = (k.CXs i).TX ∨ (k'.CXs i).TX.length ≤ k.numBufPkts.toNat

section Apunta
variable {k k' : KernelShm} {i : Int} {w : List Accion} {l l' : SendLocal} {bs TX : List BufPkt}
  {r : Paso × Mundo}

theorem datosDe_eq_zero (h : ∀ p ∈ envios w, p.2.cabecera.tipo = tipoDatos → p.2.cabecera.idLocal ≠ i) :
    datosDe i w = 0 := by
  refine List.countP_eq_zero.mpr fun p hp => ?_
  simpa using h p hp

theorem datosDe_nil (h : envios w = []) : datosDe i w = 0 :=
  datosDe_eq_zero fun p hp => absurd hp (by simp [h])

theorem apunta_quieta (hcx : k'.CXs i = k.CXs i) (hw : datosDe i w = 0) : Apunta k k' w i :=
  ⟨by rw [hcx], by rw [hcx, hw, Nat.add_zero], fun h => by rw [hcx, h], fun h => absurd hw h,
    fun _ => Or.inl (by rw [hcx])⟩

/-- The cell is not ESTABLISHED, and none of its packets is a DATOS packet. -/
theorem apunta_cerrada (hest : (k.CXs i).estadoCx ≠ .established)
    (hres : (k'.CXs i).resultadoPrimitiva = (k.CXs i).resultadoPrimitiva)
    (hTX : datosEn (k'.CXs i).TX = datosEn (k.CXs i).TX) (hw : datosDe i w = 0) : Apunta k k' w i :=
  ⟨hres, by rw [hTX, hw, Nat.add_zero], fun h => absurd h hest, fun h => absurd hw h,
    fun h => absurd h hest⟩

theorem datosEn_append (TX TX' : List BufPkt) : datosEn (TX ++ TX') = datosEn TX + datosEn TX' :=
  List.countP_append

theorem datosEn_sublist {TX TX' : List BufPkt} (h : TX'.Sublist TX) (hcero : datosEn TX = 0) :
    datosEn TX' = 0 := Nat.le_zero.mp (hcero ▸ h.countP_le)

/-! ## A section of `t_send` -/

theorem Tanda.datos (h : Tanda l bs l') :
    ∀ b ∈ bs, b.pkt.cabecera.tipo = tipoDatos ∧ b.pkt.cabecera.idLocal = l.id := by
  induction h with
  | nil => simp
  | cons b idDestino hn _ ih =>
      intro b' hb'
      rcases List.mem_cons.mp hb' with rfl | hb'
      · exact ⟨rfl, rfl⟩
      · exact ih b' hb'

theorem Tanda.sends (h : Tanda l bs l') : l.numeroSends = bs.length + l'.numeroSends := by
  induction h with
  | nil => simp
  | @cons l l' n bs b idDestino hn _ ih =>
      have hnum : (l.avanza n).numeroSends = n := rfl
      rw [hnum] at ih
      rw [hn, List.length_cons]
      omega

theorem Manda.datosDe_self (h : Manda k l [] r bs l') : datosDe l.id r.2.traza = bs.length := by
  have hdatos := h.tanda.datos
  rw [datosDe, h.envia]
  show List.countP _ (List.map _ bs) = _
  rw [List.countP_map, List.countP_eq_length]
  intro b hb
  simpa using hdatos b hb

theorem Manda.datosDe_of_ne (h : Manda k l [] r bs l') (hi : i ≠ l.id) : datosDe i r.2.traza = 0 := by
  refine datosDe_eq_zero fun p hp _ e => hi ?_
  rw [h.envia] at hp
  obtain ⟨b, hb, rfl⟩ := List.mem_map.mp hp
  rw [← e, (h.tanda.datos b hb).2]

/-- A section of a `t_send` on an ESTABLISHED cell that comes to the loop. -/
structure Emite (k : KernelShm) (l : SendLocal) (r : Paso × Mundo) (bs : List BufPkt) (l' : SendLocal) :
    Prop where
  manda : Manda k l [] r bs l'
  est : (k.CXs l.id).estadoCx = .established
  otras : ∀ j, j ≠ l.id → r.2.kernel.CXs j = k.CXs j
  celda : ∃ TX dormida, r.2.kernel.CXs l.id = { k.CXs l.id with TX := TX, primitivaDormida := dormida }

theorem Emite.apunta (h : Emite k l r bs l') (i : Int) : Apunta k r.2.kernel r.2.traza i := by
  obtain ⟨hm, hest, hotras, TX, d, e⟩ := h
  by_cases hi : i = l.id
  · subst hi
    refine ⟨by rw [e], ?_, fun _ => by rw [e]; exact hest, fun _ => hest, fun _ => ?_⟩
    · have hbs : datosEn bs = bs.length := List.countP_eq_length.mpr fun b hb => by
        simpa using (hm.tanda.datos b hb).1
      rw [hm.TX, datosEn_append, hbs, hm.datosDe_self]
    · rw [hm.TX]
      by_cases hbs : bs = []
      · exact Or.inl (by rw [hbs, List.append_nil])
      · have hpos := List.length_pos_iff.mpr hbs
        have hlast := hm.caben (bs.length - 1) (by omega)
        rw [List.length_append]
        exact Or.inr (by omega)
  · exact apunta_quieta (hotras i hi) (hm.datosDe_of_ne hi)

/-- A `t_send` with data: it fails at one of its tests, or comes to its loop. -/
theorem tSend_cases (e : Entorno) (id : Int) (datos : List UInt8) (longitud : UInt64) (k : KernelShm) :
    (∃ v, (v = exKernel ∨ v = exBadTid) ∧ (tSend e id (some datos) longitud ⟨k, []⟩).1 = .retorna v ∧
      (tSend e id (some datos) longitud ⟨k, []⟩).2.kernel.CXs = k.CXs ∧
      envios (tSend e id (some datos) longitud ⟨k, []⟩).2.traza = []) ∨
    ∃ bs l', Emite k (.nuevo id datos longitud (k.CXs id)) (tSend e id (some datos) longitud ⟨k, []⟩)
      bs l' := by
  by_cases hk : e.getKernel < 0
  · refine Or.inl ⟨exKernel, Or.inl rfl, ?_⟩
    rw [tSend, if_pos hk, pure_run]
    exact ⟨rfl, rfl, rfl⟩
  by_cases hest : (k.CXs id).estadoCx = .established
  · obtain ⟨bs, l', hm⟩ := tSend_manda datos longitud hk hest
    have henvia : ∃ bs, Envia (.nuevo id datos longitud (k.CXs id)) (cuantosSends longitud) k
        (tSend e id (some datos) longitud ⟨k, []⟩).2.kernel bs := tSend_envia hk hest
    obtain ⟨bs', henv⟩ := henvia
    obtain ⟨d, hd⟩ := henv.celda
    exact Or.inr ⟨bs, l', hm, hest, henv.otras, _, d, hd⟩
  · refine Or.inl ⟨exBadTid, Or.inr rfl, ?_⟩
    rw [tSend, if_neg hk]
    dsimp only
    rw [bloquearAcceso_bind, leeCx_bind, if_pos hest]
    exact ⟨rfl, rfl, rfl⟩

theorem tSend_none (e : Entorno) (id : Int) (longitud : UInt64) (k : KernelShm) :
    (tSend e id none longitud ⟨k, []⟩).2 = ⟨k, []⟩ ∧
      ∃ v, (tSend e id none longitud ⟨k, []⟩).1 = .retorna v := by
  unfold tSend
  split
  · exact ⟨rfl, _, rfl⟩
  · exact ⟨rfl, _, rfl⟩

theorem tSendSigue_emite (hest : (k.CXs l.id).estadoCx = .established)
    (hnet : (k.CXs l.id).resultadoPrimitiva ≠ exNet) :
    ∃ bs l', Emite k l (tSendSigue l ⟨k, []⟩) bs l' := by
  obtain ⟨bs, l', hm⟩ := tSendSigue_manda l hnet
  have hefecto := (tSendSigue_fin (k := k) l).efecto
  exact ⟨bs, l', hm, hest, hefecto.otras, hefecto.celda⟩

end Apunta

end Ltm.Kernel

namespace Ltm.Nodo
open Kernel
set_option autoImplicit false
set_option maxHeartbeats 250000

/-! ## What a call has sent -/

variable {s s' : Estado} {c : Llamada} {h : ℕ} {hilo hilo' : Hilo} {l : Local} {i : Int}

def Vista.restan (x : Vista) : ℕ :=
  match x.pendiente with
  | some (.send l) => l.numeroSends
  | _ => 0

/-- How many packets a `t_send` of data on the cell `i` has sent. -/
def Vista.enviados (i : Int) (x : Vista) : ℕ :=
  match x.llamada with
  | .send _ id (some _) longitud =>
    if id = i ∧ x.resultado ≠ some exKernel ∧ x.resultado ≠ some exBadTid then
      cuantosSends longitud - x.restan
    else 0
  | _ => 0

/-- A call that waits in `t_send` is a `t_send` on the same cell. -/
def Vista.Concuerda (x : Vista) : Prop :=
  ∀ l, x.pendiente = some (.send l) → ∃ e datos longitud, x.llamada = .send e l.id datos longitud

/-- How many packets the calls of `t_send` on the cell `i` have sent. -/
def Estado.enviados (s : Estado) (i : Int) : ℕ := (s.vistas.map (Vista.enviados i)).sum

def Estado.Concuerda (s : Estado) : Prop := ∀ x ∈ s.vistas, x.Concuerda

theorem sum_map_set {α : Type} {f : α → ℕ} {xs : List α} {a b : α} (hh : xs[h]? = some a) :
    ((xs.set h b).map f).sum + f a = (xs.map f).sum + f b := by
  induction xs generalizing h with
  | nil => exact absurd hh (by simp)
  | cons x xs ih =>
      cases h with
      | zero =>
          obtain rfl := Option.some.inj hh
          simp only [List.set_cons_zero, List.map_cons, List.sum_cons]
          omega
      | succ h =>
          have hresto := ih (h := h) hh
          simp only [List.set_cons_succ, List.map_cons, List.sum_cons]
          omega

/-! ## One step of a host -/

/-- A step as a host in the network takes it: the cell that a call gets is closed, a CC comes for a cell
that is not ESTABLISHED, and a `t_send` that goes on is on an ESTABLISHED one. -/
structure Guiado (s : Estado) (e : Suceso) : Prop where
  libre : s.kernel.numCXs ≠ numMaxCXs → (s.kernel.CXs (buscarCeldaLibre s.kernel)).estadoCx = .closed
  cc : ∀ ip p para, e = .recibe ip p para → p.cabecera.tipo = tipoCC →
    (s.kernel.CXs p.cabecera.idDestino).estadoCx = .connect
  send : ∀ h l, s.pendiente h = some (.send l) → EnTabla l.id →
    (s.kernel.CXs l.id).estadoCx = .established

/-- `n` counts the DATOS packets sent for each cell of the table. -/
structure Anotado (s : Estado) (n : Int → ℕ) : Prop where
  sinNet : ∀ i, EnTabla i → (s.kernel.CXs i).resultadoPrimitiva ≠ exNet
  lista : ∀ i, EnTabla i → n i = datosEn (s.kernel.CXs i).TX
  abierta : ∀ i, EnTabla i → n i ≠ 0 → (s.kernel.CXs i).estadoCx = .established
  caben : ∀ i, EnTabla i → n i ≠ 0 → (s.kernel.CXs i).TX.length ≤ s.kernel.numBufPkts.toNat
  concuerda : s.Concuerda
  llamadas : ∀ i, EnTabla i → s.enviados i ≤ n i

variable {n : Int → ℕ} {e : Suceso}

theorem Anotado.vacia (hi : Anotado s n) (hen : EnTabla i)
    (hest : (s.kernel.CXs i).estadoCx ≠ .established) : datosEn (s.kernel.CXs i).TX = 0 := by
  rw [← hi.lista i hen]
  by_contra hn
  exact hest (hi.abierta i hen hn)

theorem apunta_llama (hg : Guiado s (.llama c)) (h : paso s (.llama c) = some s') : Apunta s.kernel s'.kernel s'.ultima i := by
  cases c with
  | send en id datos longitud =>
      obtain ⟨hilo, -, -, hk, hu, -⟩ := llama_corre h
      rw [hk, hu]
      cases datos with
      | none =>
          have hnada := (tSend_none en id longitud s.kernel).1
          rw [Llamada.empieza, hnada]
          exact apunta_quieta rfl rfl
      | some ds =>
          rcases tSend_cases en id ds longitud s.kernel with ⟨v, -, -, hcx, hnada⟩ | ⟨bs, l', hemite⟩
          · exact apunta_quieta (congrFun hcx i) (datosDe_nil hnada)
          · exact hemite.apunta i
  | connect en destino origen =>
      cases transita_of_paso h with
      | termina hs he =>
          exact apunta_quieta (congrFun (empieza_retorna_CXs he (by simp)) i)
            (datosDe_nil (Red.envios_empieza_retorna he (by simp)))
      | empieza hs he =>
          cases he with
          | connect _ _ _ origen' hk hpar hn hrep =>
              have hw : datosDe i (trazaConnect s.kernel destino origen') = 0 := by
                refine datosDe_eq_zero fun p hp ht => ?_
                rw [Red.envios_trazaConnect] at hp
                obtain rfl := List.mem_singleton.mp hp
                exact absurd (show tipoCR = tipoDatos from ht) (by decide)
              by_cases e : i = buscarCeldaLibre s.kernel
              · subst e
                have hcerrada := hg.libre hn
                refine apunta_cerrada (by simp [hcerrada]) ?_ ?_ hw
                · rw [trasConnect_self]
                  rfl
                · rw [trasConnect_self]
                  show datosEn (_ ++ [_]) = _
                  rw [datosEn_append]
                  rfl
              · exact apunta_quieta (trasConnect_of_ne en.pid destino origen' e) hw
  | listen en escucha remota =>
      cases transita_of_paso h with
      | termina hs he =>
          exact apunta_quieta (congrFun (empieza_retorna_CXs he (by simp)) i)
            (datosDe_nil (Red.envios_empieza_retorna he (by simp)))
      | empieza hs he =>
          cases he with
          | listen _ _ escucha' _ hk hpar hn hrep =>
              by_cases e : i = buscarCeldaLibre s.kernel
              · subst e
                have hcerrada := hg.libre hn
                refine apunta_cerrada (by simp [hcerrada]) ?_ ?_ rfl
                · rw [trasListen_self]
                  rfl
                · rw [trasListen_self]
                  rfl
              · exact apunta_quieta (trasListen_of_ne en.pid escucha' remota e) rfl

theorem apunta_sigue (hi : Anotado s n) (hg : Guiado s (.sigue h)) (hen : EnTabla i)
    (hp : paso s (.sigue h) = some s') : Apunta s.kernel s'.kernel s'.ultima i := by
  obtain ⟨hilo, l, hh, hf, hilo', -, -, hk, hu, -⟩ := sigue_corre hp
  rw [hk, hu]
  cases l with
  | connect j =>
      rw [Local.sigue, tConnectSigue_run]
      exact apunta_quieta rfl rfl
  | listen j =>
      rw [Local.sigue, tListenSigue_run]
      exact apunta_quieta rfl rfl
  | send l =>
      have hpend : s.pendiente h = some (.send l) := by
        rw [pendiente_of_hilo hh, hf]
        rfl
      by_cases hid : EnTabla l.id
      · obtain ⟨bs, l', hemite⟩ := tSendSigue_emite (hg.send h l hpend hid) (hi.sinNet l.id hid)
        exact hemite.apunta i
      · have hne : i ≠ l.id := fun e => hid (e ▸ hen)
        refine apunta_quieta ((tSendSigue_fin (k := s.kernel) l).efecto.otras i hne) ?_
        refine datosDe_eq_zero fun p hp _ e => hne ?_
        rw [← e, ((Red.emiteDatos_tSendSigue l s.kernel).envios p hp).idLocal]

theorem apunta_recibe (hi : Anotado s n) {ip : InAddr} {p : Tpdu} {para : Option ℕ}
    (hg : Guiado s (.recibe ip p para)) (hen : EnTabla i) (h : paso s (.recibe ip p para) = some s') :
    Apunta s.kernel s'.kernel s'.ultima i := by
  cases transita_of_paso h with
  | recibe hs hd he =>
      cases he with
      | cc ht =>
          have hw : datosDe i (trazaCC s.kernel p.cabecera) = 0 :=
            datosDe_nil (Red.envios_trazaCC _ _)
          by_cases e : i = p.cabecera.idDestino
          · subst e
            have hest := hg.cc ip p para rfl ht
            have hno : (s.kernel.CXs p.cabecera.idDestino).estadoCx ≠ .established := by simp [hest]
            have hcero := hi.vacia hen hno
            refine apunta_cerrada hno ?_ ?_ hw
            · show ((s.kernel.trasCC p.cabecera).CXs p.cabecera.idDestino).resultadoPrimitiva = _
              rw [trasCC_self, Conexion.recibeCC]
              split <;> rfl
            · rw [hcero]
              exact datosEn_sublist (sublist_trasCC p.cabecera p.cabecera.idDestino) hcero
          · exact apunta_quieta (trasCC_of_ne e) hw
      | cr ht =>
          have hw : datosDe i (trazaCR s.kernel ip p) = 0 := by
            refine datosDe_eq_zero fun q hq ht' => ?_
            obtain rfl := List.mem_singleton.mp hq
            exact absurd (show tipoCC = tipoDatos from ht') (by decide)
          by_cases e : i = asignConexionCR p s.kernel
          · subst e
            have hcx : (s.kernel.trasCR ip p).CXs (asignConexionCR p s.kernel) =
                (s.kernel.CXs (asignConexionCR p s.kernel)).aceptaCR ip p.cabecera :=
              trasCR_of_enTabla hen
            have hlisten : (s.kernel.CXs (asignConexionCR p s.kernel)).estadoCx = .listen := by
              rcases asignConexionCR_cases p s.kernel with ⟨-, he⟩ | hno
              · exact encaja_listen he
              · exact absurd (hno ▸ hen) not_enTabla_exNoTsap
            refine apunta_cerrada (by simp [hlisten]) ?_ ?_ hw
            · exact (congrArg Conexion.resultadoPrimitiva hcx).trans rfl
            · exact congrArg datosEn (TX_trasCR ip p _)
          · exact apunta_quieta (trasCR_of_ne e) hw
      | otro hcc hcr => exact apunta_quieta rfl rfl

theorem apunta_paso (hi : Anotado s n) (hg : Guiado s e) (hen : EnTabla i) (h : paso s e = some s') :
    Apunta s.kernel s'.kernel s'.ultima i := by
  cases e with
  | llama c => exact apunta_llama hg h
  | sigue h' => exact apunta_sigue hi hg hen h
  | recibe ip p para => exact apunta_recibe hi hg hen h
  | citaDaemon | cita | despierta | suelta =>
      cases transita_of_paso h
      exact apunta_quieta rfl rfl

/-! ## The calls after a step -/

theorem enviados_concat (hs : s'.hilos = s.hilos ++ [hilo]) :
    s'.enviados i = s.enviados i + hilo.vista.enviados i := by
  simp [Estado.enviados, Estado.vistas, hs]

theorem enviados_set (hh : s.hilos[h]? = some hilo) (hs : s'.hilos = s.hilos.set h hilo') :
    s'.enviados i + hilo.vista.enviados i = s.enviados i + hilo'.vista.enviados i := by
  unfold Estado.enviados Estado.vistas
  rw [hs, List.map_map, List.map_map]
  exact sum_map_set hh

/-- A call that has returned from a test of `t_send` has sent nothing. -/
theorem enviados_of_error {x : Vista} {v : Int} (hv : v = exKernel ∨ v = exBadTid)
    (hx : x.resultado = some v) : x.enviados i = 0 := by
  unfold Vista.enviados
  split
  · refine if_neg fun hno => ?_
    rcases hv with rfl | rfl
    · exact hno.2.1 hx
    · exact hno.2.2 hx
  · rfl

/-- The call has sent as many packets more as it has fewer to send, at most `d`. -/
theorem enviados_le {x y : Vista} {d : ℕ} (hl : y.llamada = x.llamada) (hr : x.resultado = none)
    (hd : ∀ e datos longitud, x.llamada = .send e i datos longitud → x.restan ≤ y.restan + d) :
    y.enviados i ≤ x.enviados i + d := by
  unfold Vista.enviados
  rw [hl]
  split
  · next e id datos longitud he =>
    by_cases hid : id = i
    · subst hid
      have hmas := hd e _ longitud he
      rw [if_pos (show id = id ∧ x.resultado ≠ _ ∧ x.resultado ≠ _ by simp [hr])]
      split <;> omega
    · rw [if_neg fun h => hid h.1]
      exact Nat.zero_le _
  · exact Nat.zero_le _

/-- What a section of `t_send` leaves of its call. -/
theorem vista_of_emite {k : KernelShm} {l l' : SendLocal} {r : Paso × Mundo} {bs : List BufPkt}
    (hm : Emite k l r bs l') (hf : fasePaso r.1 = some hilo.fase) : hilo.vista.restan = l'.numeroSends ∧
      ∀ l'', hilo.vista.pendiente = some (.send l'') → l''.id = l.id := by
  unfold Hilo.vista Vista.restan
  rcases hm.manda.deja with ⟨hr, hsends⟩ | hr
  · rw [hr] at hf
    rw [← Option.some.inj hf, hsends]
    exact ⟨rfl, fun l'' he => absurd he (by simp [Fase.pendiente])⟩
  · rw [hr] at hf
    rw [← Option.some.inj hf]
    refine ⟨rfl, fun l'' he => ?_⟩
    obtain rfl := Local.send.inj (Option.some.inj he)
    exact hm.manda.tanda.id_eq

theorem llamadas_send {en : Entorno} {id : Int} {ds : List UInt8} {longitud : UInt64}
    (hc : hilo.ficha.llamada = .send en id (some ds) longitud)
    (hf : fasePaso (tSend en id (some ds) longitud ⟨s.kernel, []⟩).1 = some hilo.fase) :
    hilo.vista.Concuerda ∧
      hilo.vista.enviados i ≤ datosDe i (tSend en id (some ds) longitud ⟨s.kernel, []⟩).2.traza := by
  rcases tSend_cases en id ds longitud s.kernel with ⟨v, hv, hr, -, -⟩ | ⟨bs, l', hm⟩
  · rw [hr] at hf
    have hfase := (Option.some.inj hf).symm
    refine ⟨fun l hl => absurd hl (by simp [Hilo.vista, hfase, Fase.pendiente]), ?_⟩
    rw [enviados_of_error hv (by simp [Hilo.vista, hfase, Fase.resultado])]
    exact Nat.zero_le _
  · obtain ⟨hrestan, hpend⟩ := vista_of_emite hm hf
    refine ⟨fun l hl => ⟨en, some ds, longitud, ?_⟩, ?_⟩
    · rw [hpend l hl]
      exact hc
    · have hsends : cuantosSends longitud = bs.length + l'.numeroSends := hm.manda.tanda.sends
      unfold Vista.enviados
      rw [show hilo.vista.llamada = _ from hc]
      dsimp only
      split
      · next hid =>
        have hself : datosDe id _ = bs.length := hm.manda.datosDe_self
        rw [← hid.1, hself, hrestan]
        omega
      · exact Nat.zero_le _

/-- A `t_connect` or `t_listen` does not wait in `t_send`. -/
theorem sinSend_empieza {k k' : KernelShm} {pa : Paso} {w : List Accion} {f : Fase} {l : SendLocal}
    (he : Empieza k c pa k' w) (hno : ∀ e id datos longitud, c ≠ .send e id datos longitud)
    (hf : fasePaso pa = some f) : f.pendiente ≠ some (.send l) := by
  cases he with
  | busca => exact absurd hf (by simp [fasePaso])
  | fuera | lleno | repetido | connect | listen =>
      obtain rfl := Option.some.inj hf
      simp [Fase.pendiente]
  | sinConexion e id datos longitud => exact absurd rfl (hno e id datos longitud)
  | send e id datos longitud => exact absurd rfl (hno e id (some datos) longitud)

theorem llamadas_llama (h : paso s (.llama c) = some s') (hcon : s.Concuerda) :
    s'.Concuerda ∧ ∀ i, s'.enviados i ≤ s.enviados i + datosDe i s'.ultima := by
  obtain ⟨hilo, hs', hc, -, hu, hf⟩ := llama_corre h
  suffices hfin : hilo.vista.Concuerda ∧ ∀ i, hilo.vista.enviados i ≤ datosDe i s'.ultima by
    refine ⟨forall_vistas_concat hcon hs' hfin.1, fun i => ?_⟩
    rw [enviados_concat hs']
    exact Nat.add_le_add_left (hfin.2 i) _
  rw [hu]
  have he := empieza_paso (k := s.kernel) c
  cases c with
  | send en id datos longitud =>
      cases datos with
      | none =>
          obtain ⟨-, v, hr⟩ := tSend_none en id longitud s.kernel
          rw [Llamada.empieza, hr] at hf
          have hfase := (Option.some.inj hf).symm
          refine ⟨fun l hl => absurd hl (by simp [Hilo.vista, hfase, Fase.pendiente]), fun i => ?_⟩
          simp [Vista.enviados, Hilo.vista, hc]
      | some ds => exact ⟨(llamadas_send (i := 0) hc hf).1, fun i => (llamadas_send hc hf).2⟩
  | connect | listen =>
      refine ⟨fun l hl => absurd hl (sinSend_empieza he (by simp) hf), fun i => ?_⟩
      simp [Vista.enviados, Hilo.vista, hc]

theorem llamadas_sigue (hi : Anotado s n) (hg : Guiado s (.sigue h)) (hp : paso s (.sigue h) = some s') :
    s'.Concuerda ∧ ∀ i, EnTabla i → s'.enviados i ≤ s.enviados i + datosDe i s'.ultima := by
  obtain ⟨hilo, l, hh, hf, hilo', hs', hc, -, hu, hf'⟩ := sigue_corre hp
  have hcon := hi.concuerda
  have hpend : hilo.vista.pendiente = some l := by
    unfold Hilo.vista
    rw [hf]
    rfl
  have hsin : hilo.vista.resultado = none := by
    unfold Hilo.vista
    rw [hf]
    rfl
  have hvieja : hilo.vista.Concuerda := hcon _ (List.mem_map_of_mem (List.mem_of_getElem? hh))
  suffices hfin : (∀ l', hilo'.vista.pendiente = some (.send l') → ∃ l₀, l = .send l₀ ∧ l'.id = l₀.id) ∧
      ∀ i, EnTabla i → hilo'.vista.enviados i ≤ hilo.vista.enviados i + datosDe i s'.ultima by
    refine ⟨forall_vistas_set hcon hs' fun l' hl' => ?_, fun i hen => ?_⟩
    · obtain ⟨l₀, rfl, hid⟩ := hfin.1 l' hl'
      obtain ⟨e, datos, longitud, hl₀⟩ := hvieja l₀ hpend
      exact ⟨e, datos, longitud, hc.trans (hid ▸ hl₀)⟩
    · have hsuma := enviados_set (i := i) hh hs'
      have hmas := hfin.2 i hen
      omega
  rw [hu]
  cases l with
  | connect j | listen j =>
      have hfase : hilo'.fase.pendiente = none := by
        rw [Local.sigue] at hf'
        first | rw [tConnectSigue_run] at hf' | rw [tListenSigue_run] at hf'
        rw [← Option.some.inj hf']
        rfl
      refine ⟨fun l' hl' => absurd hl' (by simp [Hilo.vista, hfase]), fun i _ => ?_⟩
      refine enviados_le hc hsin fun _ _ _ _ => ?_
      simp [Vista.restan, hpend]
  | send l =>
      have hpend' : s.pendiente h = some (.send l) := (pendiente_of_hilo hh).trans hpend
      refine ⟨fun l' hl' => ⟨l, rfl, ?_⟩, fun i hen => ?_⟩
      · have hfin := tSendSigue_fin (k := s.kernel) l
        rcases hfin.paso with ⟨v, hr⟩ | ⟨l'', hr, hid⟩
        · rw [Local.sigue, hr] at hf'
          exact absurd hl' (by simp [Hilo.vista, ← Option.some.inj hf', Fase.pendiente])
        · rw [Local.sigue, hr] at hf'
          rw [Hilo.vista, ← Option.some.inj hf'] at hl'
          obtain rfl := Local.send.inj (Option.some.inj hl')
          exact hid
      · refine enviados_le hc hsin fun e datos longitud he => ?_
        obtain ⟨e', datos', longitud', he'⟩ := hvieja l hpend
        obtain ⟨-, rfl, -, -⟩ := Llamada.send.inj (he.symm.trans he')
        obtain ⟨bs, l', hm⟩ := tSendSigue_emite (hg.send h l hpend' hen) (hi.sinNet l.id hen)
        have hself : datosDe l.id _ = bs.length := hm.manda.datosDe_self
        have hsends := hm.manda.tanda.sends
        have hrestan : hilo.vista.restan = l.numeroSends := by
          rw [Vista.restan, hpend]
        rw [Local.sigue, hself, (vista_of_emite hm hf').1, hrestan]
        omega

theorem llamadas_paso (hi : Anotado s n) (hg : Guiado s e) (h : paso s e = some s') :
    s'.Concuerda ∧ ∀ i, EnTabla i → s'.enviados i ≤ s.enviados i + datosDe i s'.ultima := by
  by_cases hl : ∃ c, e = .llama c
  · obtain ⟨c, rfl⟩ := hl
    obtain ⟨hcon, hmas⟩ := llamadas_llama h hi.concuerda
    exact ⟨hcon, fun i _ => hmas i⟩
  by_cases hs : ∃ j, e = .sigue j
  · obtain ⟨j, rfl⟩ := hs
    exact llamadas_sigue hi hg h
  have hv := vistas_paso h (fun c e => hl ⟨c, e⟩) fun j e => hs ⟨j, e⟩
  refine ⟨?_, fun i _ => ?_⟩
  · rw [Estado.Concuerda, hv]
    exact hi.concuerda
  · rw [Estado.enviados, hv]
    exact Nat.le_add_right _ _

theorem anotado_paso (hi : Anotado s n) (hg : Guiado s e) (h : paso s e = some s') :
    Anotado s' fun i => n i + datosDe i s'.ultima := by
  obtain ⟨hcon, hmas⟩ := llamadas_paso hi hg h
  have hap := fun i (hen : EnTabla i) => apunta_paso hi hg hen h
  have hnum := numBufPkts_paso h
  refine ⟨fun i hen => ?_, fun i hen => ?_, fun i hen hn => ?_, fun i hen hn => ?_, hcon, fun i hen => ?_⟩
  · rw [(hap i hen).resultado]
    exact hi.sinNet i hen
  · rw [(hap i hen).datos, hi.lista i hen]
  · by_cases hviejo : n i = 0
    · exact (hap i hen).abierta ((hap i hen).nuevos (by omega))
    · exact (hap i hen).abierta (hi.abierta i hen hviejo)
  · have hest : (s.kernel.CXs i).estadoCx = .established := by
      by_cases hviejo : n i = 0
      · exact (hap i hen).nuevos (by omega)
      · exact hi.abierta i hen hviejo
    rw [hnum]
    rcases (hap i hen).caben hest with hTX | hle
    · have hdatos := (hap i hen).datos
      have hlista := hi.lista i hen
      rw [hTX] at hdatos ⊢
      exact hi.caben i hen (by omega)
    · exact hle
  · have := hi.llamadas i hen
    have := hmas i hen
    omega

end Ltm.Nodo

namespace Ltm.Red
open Kernel Nodo Runs Rendezvous
set_option autoImplicit false
set_option maxHeartbeats 250000

/-! ## The network -/

/-- The record of the DATOS packets that each host has sent for each cell. -/
def anotaDatos (_ : Sistema) (e : Evento) (σ' : Sistema) (n : InAddr → Int → ℕ) : InAddr → Int → ℕ :=
  match anfitrion e with
  | some a => Function.update n a fun i => n a i + datosDe i (σ'.nodos a).ultima
  | none => n

/-- The states with their record, for hosts with the parameter `numBufPkts`. -/
structure Cupo (numBufPkts : InAddr → UInt16) (p : Sistema × (InAddr → Int → ℕ)) : Prop where
  coherente : Coherente p.1
  num : ∀ a, (p.1.nodos a).kernel.numBufPkts = numBufPkts a
  anotado : ∀ a, Anotado (p.1.nodos a) (p.2 a)

variable {σ σ' : Sistema} {n n' : InAddr → Int → ℕ} {a : InAddr} {e : Evento} {s' : Estado} {i : Int}
  {numBufPkts : InAddr → UInt16}

theorem Coherente.guiado (hi : Coherente σ) {e : Suceso} (hcc : ∀ ip p para, e = .recibe ip p para →
    p.cabecera.tipo = tipoCC → ((σ.nodos a).kernel.CXs p.cabecera.idDestino).estadoCx = .connect) :
    Guiado (σ.nodos a) e where
  libre := cerrada_libre (hi.cuadra a) (hi.ocupadas a)
  cc := hcc
  send := by
    intro h l hl hen
    have hphase := (hi.dirigidos a h l hl hen).phase
    rw [phase_ranura hen] at hphase
    exact fase_eq_open.mp hphase

theorem Cupo.tras (hi : Cupo numBufPkts (σ, n)) {red : List Datagrama} {e : Suceso}
    (hcoh : Coherente (σ.tras a red s')) (hg : Guiado (σ.nodos a) e)
    (h : Nodo.paso (σ.nodos a) e = some s') : Cupo numBufPkts (σ.tras a red s',
      Function.update n a fun i => n a i + datosDe i ((σ.tras a red s').nodos a).ultima) := by
  refine ⟨hcoh, fun b => ?_, fun b => ?_⟩
  · by_cases hb : b = a
    · subst hb
      show ((σ.tras b red s').nodos b).kernel.numBufPkts = _
      rw [tras_nodos_self, numBufPkts_paso h]
      exact hi.num b
    · show ((σ.tras a red s').nodos b).kernel.numBufPkts = _
      rw [tras_nodos_of_ne hb]
      exact hi.num b
  · by_cases hb : b = a
    · subst hb
      show Anotado ((σ.tras b red s').nodos b) _
      simp only [tras_nodos_self, Function.update_self]
      exact anotado_paso (hi.anotado b) hg h
    · show Anotado ((σ.tras a red s').nodos b) _
      simp only [tras_nodos_of_ne hb, Function.update_of_ne hb]
      exact hi.anotado b

theorem cupo_paso (hi : Cupo numBufPkts (σ, n)) (h : pasoDatos σ e = some σ') :
    Cupo numBufPkts (σ', anotaDatos σ e σ' n) := by
  have hcoh := (simula_paso hi.coherente h).1
  cases avanza_of_pasoDatos h with
  | nodo hno hs' =>
      refine hi.tras hcoh (hi.coherente.guiado fun ip p para e => ?_) hs'
      subst e
      exact absurd rfl hno
  | entrega hd hs' =>
      refine hi.tras hcoh (hi.coherente.guiado fun ip p para e ht => ?_) hs'
      injection e with eip ep epara
      subst ep
      exact (calling_of_vuelo hi.coherente hd (mensaje_cc ht) rfl).2
  | pierde hd => exact ⟨hcoh, hi.num, hi.anotado⟩

section Runs
variable {interfaz : InAddr → String} {fuera : InAddr → Int → Conexion} {basura : InAddr → ℕ → BufPkt}
  {es : List Evento} {xs : List (Evento × Lectura)}

theorem cupo_inicial : Cupo numBufPkts (inicial (kernels interfaz numBufPkts fuera basura), fun _ _ => 0) where
  coherente := coherente_inicial interfaz numBufPkts fuera basura
  num := fun _ => rfl
  anotado := fun a =>
    { sinNet := fun i hen => by
        simp [inicial, Nodo.inicial, kernels, kernelInicial, iniciaKernel, inicializarCXsLibres, hen,
          Conexion.nula]
      lista := fun i hen => by
        simp [inicial, Nodo.inicial, kernels, kernelInicial, iniciaKernel, inicializarCXsLibres, hen,
          Conexion.nula, datosEn]
      abierta := fun i _ h => absurd rfl h
      caben := fun i _ h => absurd rfl h
      concuerda := fun x hx => absurd hx (by simp [Estado.vistas, inicial, Nodo.inicial])
      llamadas := fun i _ => by simp [Estado.enviados, Estado.vistas, inicial, Nodo.inicial] }

theorem cupo_run (hr : run (recording pasoDatos anotaDatos)
    (inicial (kernels interfaz numBufPkts fuera basura), fun _ _ => 0) es = some (σ, n)) :
    Cupo numBufPkts (σ, n) := by
  refine run_invariant (Cupo numBufPkts) (fun _ _ _ => True) (fun p e q hi _ hs => ?_) cupo_inicial
    (Along.of_true (fun _ _ _ _ => trivial) es _) hr
  obtain ⟨hpaso, hnota⟩ := recording_eq_some hs
  have hq := cupo_paso hi hpaso
  rw [← hnota] at hq
  exact hq

/-- What has been sent in a run for the cell `i` of the host `a`: the DATOS packets of its `TX`, among
them those of its calls. -/
structure Acotado (σ : Sistema) (n : InAddr → Int → ℕ) (numBufPkts : UInt16) (a : InAddr) (i : Int) :
    Prop where
  lista : n a i = datosEn (σ.celda a i).TX
  llamadas : (σ.nodos a).enviados i ≤ n a i
  cupo : n a i ≤ numBufPkts.toNat

theorem Cupo.acotado (hi : Cupo numBufPkts (σ, n)) (a : InAddr) (hen : EnTabla i) :
    Acotado σ n (numBufPkts a) a i := by
  obtain ⟨-, hnum, hi⟩ := hi
  refine ⟨(hi a).lista i hen, (hi a).llamadas i hen, ?_⟩
  by_cases hcero : n a i = 0
  · rw [hcero]
    exact Nat.zero_le _
  · have hlista : n a i = datosEn ((σ.nodos a).kernel.CXs i).TX := (hi a).lista i hen
    have hcaben : ((σ.nodos a).kernel.CXs i).TX.length ≤ (σ.nodos a).kernel.numBufPkts.toNat :=
      (hi a).caben i hen hcero
    have hN : (σ.nodos a).kernel.numBufPkts = numBufPkts a := hnum a
    rw [hN] at hcaben
    rw [hlista]
    exact List.countP_le_length.trans hcaben

/-- The same record for steps with a reading. -/
def anotaRed (σ : Sistema) (x : Evento × Lectura) (σ' : Sistema) (n : InAddr → Int → ℕ) :
    InAddr → Int → ℕ := anotaDatos σ x.1 σ' n

theorem recording_pasoDatos {p q : Sistema × (InAddr → Int → ℕ)} {x : Evento × Lectura}
    (hi : Intacto p.1 x q.1) (h : recording pasoRed anotaRed p x = some q) :
    recording pasoDatos anotaDatos p x.1 = some q := by
  obtain ⟨hs, hn⟩ := recording_eq_some h
  rw [recording, pasoDatos_of_pasoRed hi hs, Option.map_some]
  exact congrArg some (Prod.ext rfl hn.symm)

theorem cupo (hr : run (recording pasoRed anotaRed)
      (inicial (kernels interfaz numBufPkts fuera basura), fun _ _ => 0) xs = some (σ, n))
    (ha : Along pasoRed Intacto (inicial (kernels interfaz numBufPkts fuera basura)) xs) (a : InAddr)
    (hen : EnTabla i) : Acotado σ n (numBufPkts a) a i := by
  have hr' : run (recording pasoDatos anotaDatos)
      (inicial (kernels interfaz numBufPkts fuera basura), fun _ _ => 0) (xs.map Prod.fst) =
        some (σ, n) :=
    run_map (f := Prod.fst) (fun _ _ _ => recording_pasoDatos) (along_recording.mpr ha) hr
  exact (cupo_run hr').acotado a hen

theorem cupo_saludo : ∃ σ n, run (recording pasoRed anotaRed)
      (inicial fun _ => kernelPorDefecto, fun _ _ => 0) (saludoDatos.map intacto) = some (σ, n) ∧
    Acotado σ n 100 0x0a000001 0 := by
  have hsome : (run (recording pasoRed anotaRed) (inicial fun _ => kernelPorDefecto, fun _ _ => 0)
      (saludoDatos.map intacto)).isSome = true := by decide +kernel
  obtain ⟨⟨σ, n⟩, hr⟩ := Option.isSome_iff_exists.mp hsome
  exact ⟨σ, n, hr, cupo hr (along_intacto _ _) 0x0a000001 (by decide)⟩

/-- A `t_send` of more bytes than fit in `NUM_BUF_PKTS` packets returns only from its tests. -/
theorem sinVuelta (h : Alcanza (inicial (kernels interfaz numBufPkts fuera basura)) xs σ) {hilo : Hilo}
    (hh : hilo ∈ (σ.nodos a).hilos) {en : Entorno} {datos : List UInt8} {longitud : UInt64}
    (hl : hilo.ficha.llamada = .send en i (some datos) longitud) (hen : EnTabla i)
    (hlargo : (numBufPkts a).toNat * maxDatos < longitud.toNat) (hmax : longitud.toNat < 2147483648) :
    ∀ v, hilo.fase = .fin v → v = exKernel ∨ v = exBadTid := by
  intro v hf
  obtain ⟨n, hr⟩ : ∃ n, run (recording pasoDatos anotaDatos)
      (inicial (kernels interfaz numBufPkts fuera basura), fun _ _ => 0) (xs.map Prod.fst) =
        some (σ, n) := exists_run_recording h.run_pasoDatos fun _ _ => 0
  obtain ⟨-, hllamadas, hcupo⟩ := (cupo_run hr).acotado a hen
  by_contra hno
  obtain ⟨hkernel, htid⟩ := not_or.mp hno
  have hsuya : hilo.vista.enviados i = cuantosSends longitud := by
    unfold Vista.enviados Hilo.vista Vista.restan
    rw [hl, hf]
    simp [Fase.resultado, Fase.pendiente, hkernel, htid]
  have hmem : hilo.vista.enviados i ∈ (σ.nodos a).vistas.map (Vista.enviados i) :=
    List.mem_map_of_mem (List.mem_map_of_mem hh)
  have hle : hilo.vista.enviados i ≤ (σ.nodos a).enviados i := List.le_sum_of_mem hmem
  have hpartes := le_mul_partes longitud.toNat
  rw [cuantosSends_eq hmax] at hsuya
  simp only [maxDatos] at hlargo hpartes
  omega

def kernelUnBuffer : KernelShm := kernelInicial "eth0" 1 (fun _ => .nula) fun n => ⟨n, .nulo, 0, 0, 0⟩

/-- The cell and the length of a `t_send` of data. -/
def enviaDe : Llamada → Option (Int × UInt64)
  | .send _ id (some _) longitud => some (id, longitud)
  | _ => none

theorem eq_send_of_enviaDe {c : Llamada} {i : Int} {longitud : UInt64}
    (h : enviaDe c = some (i, longitud)) : ∃ e datos, c = .send e i (some datos) longitud := by
  rcases c with _ | _ | ⟨e, id, _ | datos, l⟩
  case send.some =>
    obtain ⟨rfl, rfl⟩ := Prod.mk.inj (Option.some.inj h)
    exact ⟨e, datos, rfl⟩
  all_goals cases h

/-- `saludo`, and a `t_send` of two packets on its connection. -/
def saludoLargo : List Evento :=
  saludo ++ [.nodo 0x0a000001 (.llama (.send entornoVacio 0 (some (List.replicate 1025 7)) 1025))]

theorem sinVuelta_saludo : ∃ σ,
    Alcanza (inicial fun _ => kernelUnBuffer) (saludoLargo.map intacto) σ ∧
      ∃ hilo ∈ (σ.nodos 0x0a000001).hilos, enviaDe hilo.ficha.llamada = some (0, 1025) ∧
        ∀ v, hilo.fase = .fin v → v = exKernel ∨ v = exBadTid := by
  have hsome : (run pasoRed (inicial fun _ => kernelUnBuffer) (saludoLargo.map intacto)).map (fun σ =>
      decide (∃ hilo ∈ (σ.nodos 0x0a000001).hilos, enviaDe hilo.ficha.llamada = some (0, 1025))) =
      some true := by decide +kernel
  obtain ⟨σ, hr, hlarga⟩ := Option.map_eq_some_iff.mp hsome
  obtain ⟨hilo, hh, hl⟩ := of_decide_eq_true hlarga
  obtain ⟨en, datos, he⟩ := eq_send_of_enviaDe hl
  have h := alcanza_intacto hr
  exact ⟨σ, h, hilo, hh, hl, sinVuelta h hh he (by decide) (by decide) (by decide)⟩

end Runs

end Ltm.Red
