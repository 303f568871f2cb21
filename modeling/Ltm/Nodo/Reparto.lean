import Ltm.Nodo.Traslado
import Ltm.Nodo.Respuestas
import Ltm.Nodo.Libres
import Ltm.Kernel.Reparto

/-! # The buffers and the owners of the cells

Beside the state there is a record of the connection that each call works for and of the connection that
the packet in each buffer was made for; a connection is named by the call that opened it. A refused
connect leaves its CR in `TX`, and the cell is free. As long as no connect is refused, and no `t_send`
sends for a cell outside the table, every buffer stands in one list, no free cell has any, and those of
an occupied cell were made for its owner.
-/

namespace Ltm.Nodo
open Kernel Runs
set_option autoImplicit false
set_option maxHeartbeats 250000

/-! ## The record -/

structure Registro where
  conexion : ℕ → Option ℕ
  para : ℕ → Option ℕ

/-- The connection that a new call works for. -/
def conexionDe (s : Estado) : Llamada → Option ℕ
  | .send _ id _ _ => s.dueno id
  | _ => some s.hilos.length

def Registro.conLlamada (r : Registro) (s : Estado) : Suceso → ℕ → Option ℕ
  | .llama c => Function.update r.conexion s.hilos.length (conexionDe s c)
  | _ => r.conexion

/-- The connection that the packets of an event are made for. -/
def Registro.deQuien (r : Registro) (s : Estado) : Suceso → Option ℕ
  | .llama c => conexionDe s c
  | .sigue h => r.conexion h
  | _ => none

def anotaPara (s : Estado) (e : Suceso) (s' : Estado) (r : Registro) : Registro where
  conexion := r.conLlamada s e
  para n := if n ∈ s'.kernel.nodosTX ∧ n ∉ s.kernel.nodosTX then r.deQuien s e else r.para n

def registroVacio : Registro := ⟨fun _ => none, fun _ => none⟩

structure Repartidos (s : Estado) (r : Registro) : Prop where
  reparto : Repartido s.kernel
  libres : ∀ i, EnTabla i → ¬s.kernel.ocupada i → (s.kernel.CXs i).TX = []
  propios : ∀ i, EnTabla i → s.kernel.ocupada i → ∀ b ∈ (s.kernel.CXs i).TX,
    ∃ h, s.dueno i = some h ∧ r.para b.nodo = some h
  tope : 1 ≤ s.kernel.numBufPkts.toNat → ∀ i, EnTabla i →
    (s.kernel.CXs i).TX.length ≤ s.kernel.numBufPkts.toNat

/-- The event is no negative CC, and no `t_send` that puts a packet into a list outside the table. -/
structure SinPerdida (s : Estado) (e : Suceso) : Prop where
  rechazo : ∀ ipRemota p para, e = .recibe ipRemota p para → p.cabecera.tipo = tipoCC →
    ¬p.cabecera.conexionAceptada < 0
  fuera : ∀ l n, envioDe s e = some (l, n) → 0 < n →
    (s.kernel.CXs l.id).TX.length < s.kernel.numBufPkts.toNat → EnTabla l.id

structure Ordenado (s : Estado) (r : Registro) : Prop where
  correspondida : Correspondida s
  repartidos : Repartidos s r
  conexion : ∀ h l, s.pendiente h = some (.send l) → EnTabla l.id → r.conexion h = s.dueno l.id

variable {s s' : Estado} {k k' : KernelShm} {e : Suceso} {r : Registro} {i : Int} {l : SendLocal}

/-! ## The calls of `t_send` -/

theorem envioDe_cases {n : ℕ} (he : envioDe s e = some (l, n)) :
    (∃ en datos longitud, e = .llama (.send en l.id datos longitud) ∧
      (s.kernel.CXs l.id).estadoCx = .established) ∨
      ∃ h, e = .sigue h ∧ s.pendiente h = some (.send l) := by
  unfold envioDe at he
  split at he
  · next en id datos longitud =>
    split at he
    · next hok =>
      obtain ⟨rfl, rfl⟩ := Prod.mk.inj (Option.some.inj he)
      exact Or.inl ⟨en, some datos, longitud, rfl, hok.2⟩
    · exact absurd he (by simp)
  · next h =>
    obtain ⟨hilo, hh, he⟩ := Option.bind_eq_some_iff.mp he
    split at he
    · next l' hf =>
      obtain ⟨rfl, rfl⟩ := Prod.mk.inj (Option.some.inj he)
      refine Or.inr ⟨h, rfl, ?_⟩
      rw [pendiente_of_hilo hh, hf]
      rfl
    · exact absurd he (by simp)
  · exact absurd he (by simp)

theorem Confirmable.envio_established {n : ℕ} (hi : Confirmable s) (he : envioDe s e = some (l, n))
    (ht : EnTabla l.id) : (s.kernel.CXs l.id).estadoCx = .established := by
  rcases envioDe_cases he with ⟨en, datos, longitud, -, hest⟩ | ⟨h, -, hp⟩
  · exact hest
  · exact hi.envia h l hp ht

theorem Ordenado.deQuien_envio {n : ℕ} (hi : Ordenado s r) (he : envioDe s e = some (l, n))
    (ht : EnTabla l.id) : r.deQuien s e = s.dueno l.id := by
  rcases envioDe_cases he with ⟨en, datos, longitud, rfl, -⟩ | ⟨h, rfl, hp⟩
  · rfl
  · exact hi.conexion h l hp ht

/-- A call in `t_send` after a step was in it before, for the same cell, or has come in by the step. -/
theorem pendiente_send_transita {j : ℕ} (h : Transita s e s') (hp : s'.pendiente j = some (.send l)) :
    (∃ l₀, s.pendiente j = some (.send l₀) ∧ l₀.id = l.id) ∨ j = s.hilos.length ∧
      ∃ en datos longitud, e = .llama (.send en l.id datos longitud) ∧
        (s.kernel.CXs l.id).estadoCx = .established := by
  cases h with
  | @termina c v k' w hs he =>
      rcases (pendiente_concat (by rfl)).mp hp with hp | ⟨-, hp⟩
      · exact Or.inl ⟨l, hp, rfl⟩
      · exact absurd hp (by simp [hiloTerminado, Fase.pendiente])
  | @empieza c i l' k' w hs he =>
      rcases (pendiente_concat (by rfl)).mp hp with hp | ⟨rfl, hnueva⟩
      · exact Or.inl ⟨l, hp, rfl⟩
      · obtain rfl : l' = .send l := Option.some.inj hnueva
        cases he with
        | send e id datos longitud hest hfin =>
            obtain ⟨-, l'', e', hid⟩ := hfin.espera rfl
            obtain rfl := Local.send.inj e'
            exact Or.inr ⟨rfl, e, some datos, longitud, by rw [hid], by rw [hid, hest]⟩
  | @acaba h hilo l' v k' w hs hh hf he =>
      rcases (pendiente_set hh (by rfl)).mp hp with ⟨-, hp⟩ | ⟨-, hp⟩
      · exact absurd hp (by simp [Hilo.acabado, Fase.pendiente])
      · exact Or.inl ⟨l, hp, rfl⟩
  | @vuelve h hilo l₀ l' i k' w hs hh hf he =>
      rcases (pendiente_set hh (by rfl)).mp hp with
        ⟨rfl, hsuya⟩ | ⟨-, hp⟩
      · obtain rfl : l' = .send l := Option.some.inj hsuya
        cases he with
        | send l₀ hfin =>
            obtain ⟨-, l'', e', hid⟩ := hfin.espera rfl
            obtain rfl := Local.send.inj e'
            refine Or.inl ⟨l₀, ?_, hid.symm⟩
            rw [pendiente_of_hilo hh, hf]
            rfl
      · exact Or.inl ⟨l, hp, rfl⟩
  | recibe hs hd he =>
      rw [pendiente_trasRecibir] at hp
      exact Or.inl ⟨l, hp, rfl⟩
  | citaDaemon hh hf hd => exact Or.inl ⟨l, (pendiente_despertado hh hf j).symm.trans hp, rfl⟩
  | cita hne hh hf hh' hf' => exact Or.inl ⟨l, (pendiente_cita hne hh hf hh' hf' j).symm.trans hp, rfl⟩
  | despierta hh hf => exact Or.inl ⟨l, (pendiente_despertado hh hf j).symm.trans hp, rfl⟩
  | suelta hd => exact Or.inl ⟨l, hp, rfl⟩

/-! ## The owners and the occupied cells -/

theorem dueno_of_ocupada (hi : Cuadra s) (h : Transita s e s') (hocu : s.kernel.ocupada i) :
    s'.dueno i = s.dueno i := by
  cases h with
  | empieza hs he =>
      cases he with
      | connect en destino origen origen' hk hpar hn hrep =>
          refine Function.update_of_ne ?_ _ _
          rintro rfl
          exact hi.celda_libre hn hocu
      | listen en escucha escucha' remota hk hpar hn hrep =>
          refine Function.update_of_ne ?_ _ _
          rintro rfl
          exact hi.celda_libre hn hocu
      | send en id datos longitud hest hfin =>
          obtain ⟨-, l', rfl, -⟩ := hfin.espera rfl
          rfl
  | _ => rfl

theorem dueno_conecta {en : Entorno} {destino origen : TDireccion}
    (h : Transita s (.llama (.connect en destino origen)) s')
    (ht : (Llamada.connect en destino origen).toma s.kernel) :
    s'.dueno (buscarCeldaLibre s.kernel) = some s.hilos.length := by
  cases h with
  | termina hs he => exact absurd ht (not_toma_of_retorna he)
  | empieza hs he =>
      cases he
      exact Function.update_self _ _ _

/-- Without a negative CC no cell becomes free. -/
theorem ocupada_transita (hok : SinPerdida s e) (h : Transita s e s') (hocu : s.kernel.ocupada i) :
    s'.kernel.ocupada i := by
  have hempieza : ∀ {c paso k' w}, Empieza s.kernel c paso k' w → k'.ocupada i := by
    intro c paso k' w he
    by_cases ht : c.toma s.kernel
    · cases he with
      | connect en destino origen origen' =>
          by_cases hi : i = buscarCeldaLibre s.kernel
          · rw [hi]
            exact ocupada_trasConnect en.pid destino origen'
          · exact (ocupada_congr (trasConnect_of_ne en.pid destino origen' hi)).mpr hocu
      | listen en escucha escucha' remota =>
          by_cases hi : i = buscarCeldaLibre s.kernel
          · rw [hi]
            exact ocupada_trasListen en.pid escucha' remota
          · exact (ocupada_congr (trasListen_of_ne en.pid escucha' remota hi)).mpr hocu
      | fuera => exact hocu
      | busca => exact hocu
      | lleno => exact hocu
      | repetido => exact hocu
      | sinConexion => exact hocu
      | send => exact absurd ht id
    · exact ((he.mismaTabla ht).ocupada_iff i).mpr hocu
  cases h with
  | termina hs he => exact hempieza he
  | empieza hs he => exact hempieza he
  | acaba hs hh hf he => exact ((libres_sigue he).2 i).mpr hocu
  | vuelve hs hh hf he => exact ((libres_sigue he).2 i).mpr hocu
  | @recibe ipRemota p para k' w hs hd he =>
      show k'.ocupada i
      cases he with
      | cr ht => exact (ocupada_trasCR ipRemota p i).mpr hocu
      | otro => exact hocu
      | cc ht =>
          by_cases hi : i = p.cabecera.idDestino
          · unfold KernelShm.ocupada at hocu ⊢
            rwa [hi, trasCC_self, Conexion.recibeCC, if_neg (hok.rechazo _ _ _ rfl ht), ← hi]
          · exact (ocupada_congr (trasCC_of_ne hi)).mpr hocu
  | citaDaemon => exact hocu
  | cita => exact hocu
  | despierta => exact hocu
  | suelta => exact hocu

/-! ## One step -/

/-- What an allowed step does to the list `TX` of one cell. -/
inductive CambioTX (s : Estado) (r : Registro) (e : Suceso) (s' : Estado) (i : Int) : Prop
  | quita (h : (s'.kernel.CXs i).TX.Sublist (s.kernel.CXs i).TX)
  | anade {bs : List BufPkt} (h : (s'.kernel.CXs i).TX = (s.kernel.CXs i).TX ++ bs)
      (hnuevos : ∀ b ∈ bs, b.nodo ∉ s.kernel.nodosTX) (hocu : s'.kernel.ocupada i)
      (hde : r.deQuien s e = s'.dueno i)
      (htope : 1 ≤ s'.kernel.numBufPkts.toNat →
        (s'.kernel.CXs i).TX.length ≤ s'.kernel.numBufPkts.toNat)

theorem cambioTX_of_eq (h : (s'.kernel.CXs i).TX = (s.kernel.CXs i).TX) : CambioTX s r e s' i :=
  .quita (by rw [h])

theorem cambioTX_paso (hi : Ordenado s r) (hok : SinPerdida s e) (h : paso s e = some s')
    (hi' : EnTabla i) : CambioTX s r e s' i := by
  have htr := transita_of_paso h
  have hcuadra := hi.correspondida.confirmable.cuadra
  have htras := traslado_of_paso h
  generalize hk : s'.kernel = k' at htras
  cases htras with
  | quieto he hc hbuf => exact cambioTX_of_eq (by rw [hk, hbuf.TX])
  | responde => exact cambioTX_of_eq (by rw [hk, TX_trasCR])
  | confirma =>
      apply CambioTX.quita
      rw [hk]
      exact sublist_trasCC _ i
  | conecta en destino origen origen' ht =>
      have hn : s.kernel.numCXs ≠ numMaxCXs := ht.2.choose_spec.2.1
      by_cases hc : i = buscarCeldaLibre s.kernel
      · subst hc
        have hvacia := hi.repartidos.libres _ hi' (hcuadra.celda_libre hn)
        have hTX : (s'.kernel.CXs (buscarCeldaLibre s.kernel)).TX =
            (s.kernel.CXs (buscarCeldaLibre s.kernel)).TX ++
              [bufferCR (proximoBuffer s.kernel) (buscarCeldaLibre s.kernel) destino origen'] := by
          rw [hk, trasConnect_self]
          rfl
        have htoma := toma_trasConnect (k := s.kernel) en.pid destino origen'
        refine .anade hTX (fun b hb => htoma.not_mem_nodosTX hi.repartidos.reparto hb) ?_
          (dueno_conecta htr ht).symm fun huno => ?_
        · rw [hk]
          exact ocupada_trasConnect en.pid destino origen'
        · rw [hTX, hvacia]
          exact huno
      · refine cambioTX_of_eq ?_
        rw [hk, trasConnect_of_ne en.pid destino origen' hc]
  | @envia _ l n _ bs he henv =>
      subst hk
      by_cases hl : i = l.id
      · subst hl
        have hest := hi.correspondida.confirmable.envio_established he hi'
        have hocu := hi.correspondida.confirmable.ocupada _ hi' (by rw [hest]; simp)
        have hTX : (s'.kernel.CXs l.id).TX = (s.kernel.CXs l.id).TX ++ bs := by
          obtain ⟨d, hd⟩ := henv.celda
          rw [hd]
        refine .anade hTX (fun b hb => henv.toma.not_mem_nodosTX hi.repartidos.reparto hb)
          (ocupada_transita hok htr hocu) ?_ fun huno => ?_
        · rw [hi.deQuien_envio he hi', dueno_of_ocupada hcuadra htr hocu]
        · rw [henv.numBufPkts] at huno ⊢
          have htope := hi.repartidos.tope huno l.id hi'
          have hcuantos := henv.cuantos
          rw [hTX, List.length_append]
          omega
      · exact cambioTX_of_eq (by rw [henv.otras i hl])

theorem repartido_paso (hi : Ordenado s r) (hleg : Legitimo s e) (hok : SinPerdida s e)
    (h : paso s e = some s') : Repartido s'.kernel := by
  have hp := hi.repartidos.reparto
  have htras := traslado_of_paso h
  generalize s'.kernel = k' at htras
  cases htras with
  | quieto he hc hbuf =>
      refine hp.congr ?_ hbuf.nodos fun j _ => hbuf.TX j
      rw [KernelShm.nodosLibres, hbuf.libres]
      rfl
  | responde => exact hp.trasCR _ _
  | conecta en destino origen origen' => exact hp.trasConnect en.pid destino origen'
  | confirma ht =>
      obtain ⟨h', b, -, hb, hid⟩ := sinRespuesta_of_legitimo hleg ht
      have henTabla := (hi.correspondida.pregunta h' b hb).enTabla
      have hlast := hi.correspondida.ultimo hb
      rw [hid] at henTabla hlast
      exact hp.trasCC (hok.rechazo _ _ _ rfl ht) henTabla hlast
  | @envia _ l n _ bs he henv =>
      by_cases hl : EnTabla l.id
      · refine hp.toma henv.toma hl ?_ fun j hj => by rw [henv.otras j hj]
        obtain ⟨d, hd⟩ := henv.celda
        rw [hd]
      · have hvacio : bs = [] := by
          have hfuera := hok.fuera l n he
          have hcuantos := henv.cuantos
          apply List.eq_nil_of_length_eq_zero
          by_contra hpos
          exact hl (hfuera (by omega) (by omega))
        obtain ⟨hlibres, hnodos⟩ := (hvacio ▸ henv.toma).quieta
        refine hp.congr hlibres hnodos fun j hj => ?_
        rw [henv.otras j fun e => hl (e ▸ hj)]

theorem repartidos_paso (hi : Ordenado s r) (hleg : Legitimo s e) (hok : SinPerdida s e)
    (h : paso s e = some s') : Repartidos s' (anotaPara s e s' r) := by
  have htr := transita_of_paso h
  have hcuadra := hi.correspondida.confirmable.cuadra
  have hviejos : ∀ i, EnTabla i → ∀ b ∈ (s.kernel.CXs i).TX, ∃ h, s'.dueno i = some h ∧
      (anotaPara s e s' r).para b.nodo = some h := by
    intro i hi' b hb
    have hocu : s.kernel.ocupada i := by
      by_contra hlibre
      rw [hi.repartidos.libres i hi' hlibre] at hb
      exact absurd hb (by simp)
    obtain ⟨h, hd, hpara⟩ := hi.repartidos.propios i hi' hocu b hb
    refine ⟨h, by rw [dueno_of_ocupada hcuadra htr hocu, hd], ?_⟩
    show (if _ then _ else _) = _
    rw [if_neg fun hnuevo => hnuevo.2 (mem_nodosTX_of_mem hi' hb), hpara]
  refine ⟨repartido_paso hi hleg hok h, fun i hi' hlibre => ?_, fun i hi' hocu b hb => ?_,
    fun huno i hi' => ?_⟩
  · cases cambioTX_paso hi hok h hi' with
    | quita hsub =>
        have hvacia := hi.repartidos.libres i hi' fun hocu => hlibre (ocupada_transita hok htr hocu)
        rw [hvacia] at hsub
        exact List.sublist_nil.mp hsub
    | anade hTX hnuevos hocu => exact absurd hocu hlibre
  · cases cambioTX_paso hi hok h hi' with
    | quita hsub => exact hviejos i hi' b (hsub.subset hb)
    | anade hTX hnuevos hocu' hde =>
        rw [hTX] at hb
        rcases List.mem_append.mp hb with hb | hb'
        · exact hviejos i hi' b hb
        · obtain ⟨h', -, hd, -⟩ := (cuadra_transita hcuadra htr).dueno i hi' hocu
          refine ⟨h', hd, ?_⟩
          show (if _ then _ else _) = _
          rw [if_pos ⟨mem_nodosTX_of_mem hi' (hTX ▸ hb), hnuevos b hb'⟩, hde, hd]
  · cases cambioTX_paso hi hok h hi' with
    | quita hsub =>
        have hnum := numBufPkts_paso h
        rw [hnum] at huno ⊢
        exact hsub.length_le.trans (hi.repartidos.tope huno i hi')
    | anade hTX hnuevos hocu hde htope => exact htope huno

theorem ordenado_paso (hi : Ordenado s r) (hleg : Legitimo s e) (hok : SinPerdida s e)
    (h : paso s e = some s') : Ordenado s' (anotaPara s e s' r) := by
  have htr := transita_of_paso h
  have hconf := hi.correspondida.confirmable
  refine ⟨correspondida_transita hi.correspondida hleg htr, repartidos_paso hi hleg hok h,
    fun j l hl ht => ?_⟩
  rcases pendiente_send_transita htr hl with ⟨l₀, hp, hid⟩ | ⟨rfl, en, datos, longitud, rfl, hest⟩
  · rw [← hid] at ht ⊢
    have hest := hconf.envia j l₀ hp ht
    rw [dueno_of_ocupada hconf.cuadra htr (hconf.ocupada _ ht (by rw [hest]; simp)),
      ← hi.conexion j l₀ hp ht]
    cases e with
    | llama c =>
        obtain ⟨hilo, hh, -⟩ := Option.bind_eq_some_iff.mp hp
        exact Function.update_of_ne (ne_length_of_getElem? hh) _ _
    | _ => rfl
  · rw [dueno_of_ocupada hconf.cuadra htr (hconf.ocupada _ ht (by rw [hest]; simp))]
    exact Function.update_self _ _ _

/-! ## Every run -/

theorem sinPerdida_of_repartidos {r' : Registro} (hi : Ordenado s r) (hleg : Legitimo s e)
    (h : paso s e = some s') (hbuenos : Repartidos s' r') : SinPerdida s e := by
  have htras := traslado_of_paso h
  constructor
  · rintro ipRemota p para rfl ht hneg
    obtain ⟨h', b, -, hb, hid⟩ := sinRespuesta_of_legitimo hleg ht
    have hlast := hi.correspondida.ultimo hb
    have henTabla := (hi.correspondida.pregunta h' b hb).enTabla
    rw [hid] at hlast henTabla
    have hcelda : s'.kernel.CXs p.cabecera.idDestino =
        (s.kernel.CXs p.cabecera.idDestino).recibeCC p.cabecera := by
      rw [kernel_recibeCC h ht]
      exact trasCC_self p.cabecera
    rw [Conexion.recibeCC, if_pos hneg] at hcelda
    have hvacia := hbuenos.libres _ henTabla (by simp [KernelShm.ocupada, hcelda])
    rw [hcelda] at hvacia
    have hvacia : (s.kernel.CXs p.cabecera.idDestino).TX = [] := hvacia
    rw [hvacia] at hlast
    exact absurd hlast (by simp)
  · intro l n he hn hlt
    by_contra hfuera
    generalize hk : s'.kernel = k' at htras
    cases htras with
    | quieto he' => exact absurd (he.symm.trans he') (by simp)
    | conecta => exact absurd he (by simp [envioDe])
    | confirma => exact absurd he (by simp [envioDe])
    | responde => exact absurd he (by simp [envioDe])
    | @envia _ l' n' _ bs he' henv =>
        obtain ⟨rfl, rfl⟩ := Prod.mk.inj (Option.some.inj (he.symm.trans he'))
        have hcuantos := henv.cuantos
        have hbs : bs ≠ [] := List.ne_nil_of_length_pos (by omega)
        subst hk
        refine henv.toma.not_repartido hi.repartidos.reparto hbs (fun j hj => ?_) hbuenos.reparto
        rw [henv.otras j fun e' => hfuera (e' ▸ hj)]

theorem ordenado_inicial (interfaz : String) (numBufPkts : UInt16) (fuera : Int → Conexion)
    (basura : ℕ → BufPkt) :
    Ordenado (inicial (kernelInicial interfaz numBufPkts fuera basura)) registroVacio := by
  have hTX : ∀ i, EnTabla i →
      ((kernelInicial interfaz numBufPkts fuera basura).CXs i).TX = [] := by
    intro i hi
    simp [kernelInicial, iniciaKernel, inicializarCXsLibres, hi]
  have hnodos : (kernelInicial interfaz numBufPkts fuera basura).nodosTX = [] := by
    refine List.eq_nil_iff_forall_not_mem.mpr fun m hm => ?_
    obtain ⟨i, hi, hm⟩ := mem_nodosTX.mp hm
    rw [Conexion.nodosTX, hTX i hi] at hm
    exact absurd hm (by simp)
  refine ⟨correspondida_inicial interfaz numBufPkts fuera basura, ⟨?_, fun i hi _ => hTX i hi,
    fun i hi _ b hb => ?_, fun _ i hi => ?_⟩, fun h l hl => by simp [inicial, Estado.pendiente] at hl⟩
  · show Repartido (kernelInicial interfaz numBufPkts fuera basura)
    rw [Repartido, hnodos]
    exact List.Perm.refl _
  · have hb : b ∈ ((kernelInicial interfaz numBufPkts fuera basura).CXs i).TX := hb
    rw [hTX i hi] at hb
    exact absurd hb (by simp)
  · show ((kernelInicial interfaz numBufPkts fuera basura).CXs i).TX.length ≤ _
    rw [hTX i hi]
    exact Nat.zero_le _

/-- The buffers are shared out well at the start, and in every run over a network without forged or
repeated answers they stay so exactly as long as no connect is refused and no `t_send` puts a packet into
a list outside the table. -/
theorem repartidos_iff {interfaz : String} {numBufPkts : UInt16} {fuera : Int → Conexion}
    {basura : ℕ → BufPkt} (es : List Suceso)
    (hred : Along (recording paso anotaPara) (fun p e _ => Legitimo p.1 e)
      (inicial (kernelInicial interfaz numBufPkts fuera basura), registroVacio) es) :
    Repartidos (inicial (kernelInicial interfaz numBufPkts fuera basura)) registroVacio ∧
      (Along (recording paso anotaPara) (fun _ _ p' => Repartidos p'.1 p'.2)
          (inicial (kernelInicial interfaz numBufPkts fuera basura), registroVacio) es ↔
        Along (recording paso anotaPara) (fun p e _ => SinPerdida p.1 e)
          (inicial (kernelInicial interfaz numBufPkts fuera basura), registroVacio) es) := by
  have hi := ordenado_inicial interfaz numBufPkts fuera basura
  refine ⟨hi.repartidos, along_iff_along_of (fun p : Estado × Registro => Ordenado p.1 p.2)
    (fun p e _ => SinPerdida p.1 e) (fun p e _ => Legitimo p.1 e) ?_ ?_ es hi hred⟩
  · rintro p e p' hi hleg hok h
    obtain ⟨hp, hr⟩ := recording_eq_some h
    rw [hr]
    exact ordenado_paso hi hleg hok hp
  · rintro p e p' hi hleg h
    obtain ⟨hp, hr⟩ := recording_eq_some h
    refine ⟨sinPerdida_of_repartidos hi hleg hp, fun hok => ?_⟩
    rw [hr]
    exact repartidos_paso hi hleg hok hp

/-- A connect that is accepted and returns, and a `t_send` of a byte on it. -/
def unEnvio : List Suceso :=
  [.llama (conecta 80 1000), .recibe 0x0a000002 (ccPara 0 1) (some 0), .citaDaemon 0, .sigue 0,
    .llama (.send entornoVacio 0 (some [1]) 1)]

theorem repartidos_iff_unEnvio :
    Repartidos (inicial kernelPorDefecto) registroVacio ∧
      (Along (recording paso anotaPara) (fun _ _ p' => Repartidos p'.1 p'.2)
          (inicial kernelPorDefecto, registroVacio) unEnvio ↔
        Along (recording paso anotaPara) (fun p e _ => SinPerdida p.1 e)
          (inicial kernelPorDefecto, registroVacio) unEnvio) :=
  repartidos_iff unEnvio (by decide +kernel)

/-- The CR of a refused connect is left in the list of the free cell. -/
theorem no_repartidos :
    Along (recording paso anotaPara) (fun p e _ => Legitimo p.1 e)
        (inicial kernelPorDefecto, registroVacio) (rechazado 0) ∧
      ¬Along (recording paso anotaPara) (fun _ _ p' => Repartidos p'.1 p'.2)
        (inicial kernelPorDefecto, registroVacio) (rechazado 0) := by
  have hrun : ((recording paso anotaPara (inicial kernelPorDefecto, registroVacio)
      (.llama (conecta 80 1000))).bind fun p => (recording paso anotaPara p
        (.recibe 0x0a000002 (ccPara 0 exNoTsap) (some 0))).map fun p' =>
          (decide (p'.1.kernel.ocupada 0), (p'.1.kernel.CXs 0).nodosTX)) = some (false, [0]) := by
    decide +kernel
  obtain ⟨p, hp, hrun⟩ := Option.bind_eq_some_iff.mp hrun
  obtain ⟨p', hp', hval⟩ := Option.map_eq_some_iff.mp hrun
  obtain ⟨hlibre, hTX⟩ := Prod.mk.inj hval
  refine ⟨by decide +kernel, fun h => ?_⟩
  have hbuenos := ((Along.cons_of_some hp').mp ((Along.cons_of_some hp).mp h).2).1
  rw [Conexion.nodosTX, hbuenos.libres 0 (by decide) (of_decide_eq_false hlibre)] at hTX
  exact absurd hTX (by decide)

end Ltm.Nodo
