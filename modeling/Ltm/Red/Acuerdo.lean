import Ltm.Red.Sistema
import Ltm.Foundations.InFlight
import Ltm.Foundations.Runs

/-! # Agreement of the handshake

At most one CR or CC is in flight for a cell, and while one is the cell is in CONNECT (`EnVuelo`). So a
CC can reach neither a later connect in the same cell nor anything else, and what a positive CC says of
the cell of the server still holds when it arrives: nothing closes an ESTABLISHED cell.
-/

namespace Ltm.Red
open Kernel Nodo Runs InFlight
set_option autoImplicit false
set_option maxHeartbeats 250000

def Sistema.celda (σ : Sistema) (a : InAddr) (i : Int) : Conexion := (σ.nodos a).kernel.CXs i

/-- The cell `j` of the host `b` is ESTABLISHED by a `t_listen`, with the cell `i` of the host `a` at
the other end. -/
structure Servida (σ : Sistema) (a : InAddr) (i : Int) (b : InAddr) (j : Int) : Prop where
  enTabla : EnTabla j
  established : (σ.celda b j).estadoCx = .established
  listen : AbiertaListen (σ.nodos b) j
  idDestino : (σ.celda b j).idDestino = i
  puertoDestino : (σ.celda a i).puertoDestino = (σ.celda b j).puertoOrigen
  puertoOrigen : (σ.celda b j).puertoDestino = (σ.celda a i).puertoOrigen
  ipLocal : (σ.celda a i).ipDestino = (σ.celda b j).ipLocal
  ipDestino : (σ.celda b j).ipDestino = a

/-- The cell `i` of the host `a` agrees with the cell that it takes for the other end. -/
def Emparejada (σ : Sistema) (a : InAddr) (i : Int) : Prop :=
  Servida σ a i (σ.celda a i).ipDestino (σ.celda a i).idDestino

/-- Every ESTABLISHED cell that a `t_connect` opened has an ESTABLISHED cell of a `t_listen` at the other
end, with which it agrees, and no other one has that at its end. -/
structure Acordadas (σ : Sistema) : Prop where
  pareja : ∀ a i, EnTabla i → (σ.celda a i).estadoCx = .established → AbiertaConnect (σ.nodos a) i →
    Emparejada σ a i
  una : ∀ a i a' i', EnTabla i → (σ.celda a i).estadoCx = .established → AbiertaConnect (σ.nodos a) i →
    EnTabla i' → (σ.celda a' i').estadoCx = .established → AbiertaConnect (σ.nodos a') i' →
    (σ.celda a i).ipDestino = (σ.celda a' i').ipDestino →
    (σ.celda a i).idDestino = (σ.celda a' i').idDestino → a = a' ∧ i = i'

/-- The cell of the connect that a CR or a CC belongs to. -/
def clave (d : Datagrama) : InAddr × Int :=
  if d.tpdu.cabecera.tipo = tipoCC then (d.destino, d.tpdu.cabecera.idDestino)
  else (d.origen, d.tpdu.cabecera.idLocal)

/-- A datagram in flight, its connect, and what a positive CC says of the server. -/
inductive EnVuelo (σ : Sistema) (d : Datagrama) : Prop
  | cr (ht : d.tpdu.cabecera.tipo = tipoCR) (hi : EnTabla d.tpdu.cabecera.idLocal)
      (hest : (σ.celda d.origen d.tpdu.cabecera.idLocal).estadoCx = .connect)
      (hip : (σ.celda d.origen d.tpdu.cabecera.idLocal).ipDestino = d.destino)
      (hdest : d.tpdu.cabecera.ipDestino = d.destino)
      (hpd : (σ.celda d.origen d.tpdu.cabecera.idLocal).puertoDestino = d.tpdu.cabecera.puertoDest)
      (hpo : (σ.celda d.origen d.tpdu.cabecera.idLocal).puertoOrigen = d.tpdu.cabecera.puertoOrig)
  | cc (ht : d.tpdu.cabecera.tipo = tipoCC) (hi : EnTabla d.tpdu.cabecera.idDestino)
      (hest : (σ.celda d.destino d.tpdu.cabecera.idDestino).estadoCx = .connect)
      (hip : (σ.celda d.destino d.tpdu.cabecera.idDestino).ipDestino = d.origen)
      (hpos : ¬d.tpdu.cabecera.conexionAceptada < 0 →
        Servida σ d.destino d.tpdu.cabecera.idDestino d.origen d.tpdu.cabecera.idLocal)

structure Acorde (σ : Sistema) : Prop where
  cuadra : ∀ a, Cuadra (σ.nodos a)
  sinEnvios : ∀ a, SinEnvios (σ.nodos a)
  ocupada : ∀ a i, EnTabla i → (σ.celda a i).estadoCx ≠ .closed → (σ.celda a i).celdaOcupada ≠ 0
  escucha : ∀ a i, EnTabla i → (σ.celda a i).estadoCx = .listen → AbiertaListen (σ.nodos a) i
  claves : OnePerKey clave σ.red
  enVuelo : ∀ d ∈ σ.red, EnVuelo σ d
  pareja : ∀ a i, EnTabla i → (σ.celda a i).estadoCx = .established →
    AbiertaListen (σ.nodos a) i ∨ Emparejada σ a i

variable {σ σ' : Sistema} {a b : InAddr} {i j : Int} {d : Datagrama}

theorem EnVuelo.connect (h : EnVuelo σ d) :
    EnTabla (clave d).2 ∧ (σ.celda (clave d).1 (clave d).2).estadoCx = .connect := by
  cases h with
  | cr ht hi hest =>
      have hno : d.tpdu.cabecera.tipo ≠ tipoCC := tipoCR_ne_tipoCC ht
      unfold clave
      rw [if_neg hno]
      exact ⟨hi, hest⟩
  | cc ht hi hest =>
      unfold clave
      rw [if_pos ht]
      exact ⟨hi, hest⟩

/-! ## Steps that change one cell -/

/-- The cell is left, and if a `t_listen` opened it that stays on record. -/
def Conserva (σ σ' : Sistema) (a : InAddr) (i : Int) : Prop :=
  σ'.celda a i = σ.celda a i ∧ (AbiertaListen (σ.nodos a) i → AbiertaListen (σ'.nodos a) i)

theorem Servida.conserva (h : Servida σ a i b j) (hpd : (σ'.celda a i).puertoDestino =
      (σ.celda a i).puertoDestino) (hpo : (σ'.celda a i).puertoOrigen = (σ.celda a i).puertoOrigen)
    (hip : (σ'.celda a i).ipDestino = (σ.celda a i).ipDestino) (hb : Conserva σ σ' b j) :
    Servida σ' a i b j where
  enTabla := h.enTabla
  established := by rw [hb.1, h.established]
  listen := hb.2 h.listen
  idDestino := by rw [hb.1, h.idDestino]
  puertoDestino := by rw [hpd, hb.1, h.puertoDestino]
  puertoOrigen := by rw [hb.1, hpo, h.puertoOrigen]
  ipLocal := by rw [hip, hb.1, h.ipLocal]
  ipDestino := by rw [hb.1, h.ipDestino]

section Celda
variable {x : InAddr} {i₀ : Int}
  (hmarco : ∀ a i, EnTabla i → (a, i) ≠ (x, i₀) → Conserva σ σ' a i)
  (hno : EnTabla i₀ → (σ.celda x i₀).estadoCx ≠ .established)
include hmarco hno

theorem conserva_of_established (hi : EnTabla i) (hest : (σ.celda a i).estadoCx = .established) :
    Conserva σ σ' a i := by
  refine hmarco a i hi ?_
  rintro e
  obtain ⟨rfl, rfl⟩ := Prod.mk.inj e
  exact hno hi hest

theorem EnVuelo.conserva (h : EnVuelo σ d) (hd : clave d ≠ (x, i₀)) : EnVuelo σ' d := by
  cases h with
  | cr ht hi hest hip hdest hpd hpo =>
      have hcc : d.tpdu.cabecera.tipo ≠ tipoCC := tipoCR_ne_tipoCC ht
      unfold clave at hd
      rw [if_neg hcc] at hd
      have hcx := (hmarco _ _ hi hd).1
      exact .cr ht hi (by rw [hcx, hest]) (by rw [hcx, hip]) hdest (by rw [hcx, hpd])
        (by rw [hcx, hpo])
  | cc ht hi hest hip hpos =>
      unfold clave at hd
      rw [if_pos ht] at hd
      have hcx := (hmarco _ _ hi hd).1
      refine .cc ht hi (by rw [hcx, hest]) (by rw [hcx, hip]) fun hp => ?_
      have hserv := hpos hp
      exact hserv.conserva (by rw [hcx]) (by rw [hcx]) (by rw [hcx])
        (conserva_of_established hmarco hno hserv.enTabla hserv.established)

theorem Emparejada.conserva (h : Emparejada σ a i) (hi : EnTabla i)
    (hest : (σ.celda a i).estadoCx = .established) : Emparejada σ' a i := by
  have hcx := (conserva_of_established hmarco hno hi hest).1
  unfold Emparejada at h ⊢
  rw [hcx]
  exact h.conserva (by rw [hcx]) (by rw [hcx]) (by rw [hcx])
    (conserva_of_established hmarco hno h.enTabla h.established)

theorem Acorde.celda (hi : Acorde σ) (hcuadra : ∀ a, Cuadra (σ'.nodos a))
    (hsin : ∀ a, SinEnvios (σ'.nodos a))
    (hocu : EnTabla i₀ → (σ'.celda x i₀).estadoCx ≠ .closed → (σ'.celda x i₀).celdaOcupada ≠ 0)
    (hesc : EnTabla i₀ → (σ'.celda x i₀).estadoCx = .listen → AbiertaListen (σ'.nodos x) i₀)
    (hpar : EnTabla i₀ → (σ'.celda x i₀).estadoCx = .established →
      AbiertaListen (σ'.nodos x) i₀ ∨ Emparejada σ' x i₀)
    (hclaves : OnePerKey clave σ'.red)
    (hred : ∀ d ∈ σ'.red, d ∈ σ.red ∧ clave d ≠ (x, i₀) ∨ EnVuelo σ' d) : Acorde σ' where
  cuadra := hcuadra
  sinEnvios := hsin
  ocupada := by
    intro a i hi' hest
    by_cases e : (a, i) = (x, i₀)
    · obtain ⟨rfl, rfl⟩ := Prod.mk.inj e
      exact hocu hi' hest
    · have hcx := (hmarco a i hi' e).1
      rw [hcx] at hest ⊢
      exact hi.ocupada a i hi' hest
  escucha := by
    intro a i hi' hest
    by_cases e : (a, i) = (x, i₀)
    · obtain ⟨rfl, rfl⟩ := Prod.mk.inj e
      exact hesc hi' hest
    · obtain ⟨hcx, hab⟩ := hmarco a i hi' e
      rw [hcx] at hest
      exact hab (hi.escucha a i hi' hest)
  claves := hclaves
  enVuelo := by
    intro d hd
    rcases hred d hd with ⟨hd, hk⟩ | hvuelo
    · exact (hi.enVuelo d hd).conserva hmarco hno hk
    · exact hvuelo
  pareja := by
    intro a i hi' hest
    by_cases e : (a, i) = (x, i₀)
    · obtain ⟨rfl, rfl⟩ := Prod.mk.inj e
      exact hpar hi' hest
    · obtain ⟨hcx, hab⟩ := hmarco a i hi' e
      rw [hcx] at hest
      rcases hi.pareja a i hi' hest with hl | hemp
      · exact Or.inl (hab hl)
      · exact Or.inr (hemp.conserva hmarco hno hi' hest)

end Celda

/-! ## Steps of one host -/

section Tras
variable {x : InAddr} {i₀ : Int} {red : List Datagrama} {s' : Estado}

theorem tras_nodos_self : (σ.tras x red s').nodos x = s' := Function.update_self _ _ _

theorem tras_nodos_of_ne (h : a ≠ x) : (σ.tras x red s').nodos a = σ.nodos a :=
  Function.update_of_ne h _ _

theorem tras_celda_self : (σ.tras x red s').celda x i = s'.kernel.CXs i := by
  rw [Sistema.celda, tras_nodos_self]

theorem tras_forall {P : Estado → Prop} (h : ∀ a, P (σ.nodos a)) (h' : P s') (a : InAddr) :
    P ((σ.tras x red s').nodos a) := by
  by_cases e : a = x
  · rw [e, tras_nodos_self]
    exact h'
  · rw [tras_nodos_of_ne e]
    exact h a

theorem tras_conserva (hcx : ∀ i, EnTabla i → i ≠ i₀ → s'.kernel.CXs i = (σ.nodos x).kernel.CXs i)
    (hab : ∀ i, i ≠ i₀ → AbiertaListen (σ.nodos x) i → AbiertaListen s' i) :
    ∀ a i, EnTabla i → (a, i) ≠ (x, i₀) → Conserva σ (σ.tras x red s') a i := by
  intro a i hi hne
  unfold Conserva Sistema.celda
  by_cases e : a = x
  · subst e
    have hii : i ≠ i₀ := by
      rintro rfl
      exact hne rfl
    rw [tras_nodos_self]
    exact ⟨hcx i hi hii, hab i hii⟩
  · rw [tras_nodos_of_ne e]
    exact ⟨rfl, id⟩

end Tras

theorem Acorde.clave_ne (hi : Acorde σ) (hd : d ∈ σ.red)
    (hest : EnTabla i → (σ.celda a i).estadoCx ≠ .connect) : clave d ≠ (a, i) := by
  intro e
  obtain ⟨hen, hcon⟩ := (hi.enVuelo d hd).connect
  rw [e] at hen hcon
  exact hest hen hcon

theorem envios_trazaConnect (k : KernelShm) (destino origen : TDireccion) :
    envios (trazaConnect k destino origen) =
      [(destino.ip, (bufferCR (proximoBuffer k) (buscarCeldaLibre k) destino origen).pkt)] := by
  unfold trazaConnect
  split <;> rfl

theorem Acorde.cerrada (hi : Acorde σ) (hlibre : ¬(σ.nodos a).kernel.ocupada (buscarCeldaLibre
    (σ.nodos a).kernel)) :
    (σ.celda a (buscarCeldaLibre (σ.nodos a).kernel)).estadoCx = .closed := by
  by_contra hest
  exact hlibre (hi.ocupada a _ (buscarCeldaLibre_enTabla _) hest)

theorem Acorde.quieto (hi : Acorde σ) {x : InAddr} {s' : Estado} (hc : Cuadra s') (hs : SinEnvios s')
    (hk : s'.kernel.CXs = (σ.nodos x).kernel.CXs)
    (hab : ∀ i, AbiertaListen (σ.nodos x) i → AbiertaListen s' i) (hu : envios s'.ultima = []) :
    Acorde (σ.tras x σ.red s') := by
  have hred : (σ.tras x σ.red s').red = σ.red := by
    simp [Sistema.tras, hu]
  have hfuera : ∀ {p : Prop}, EnTabla exNoTsap → p := fun h => absurd h not_enTabla_exNoTsap
  refine Acorde.celda (tras_conserva (fun i _ _ => by rw [hk]) fun i _ => hab i) hfuera hi
    (tras_forall hi.cuadra hc) (tras_forall hi.sinEnvios hs) hfuera hfuera hfuera ?_ fun d hd => ?_
  · rw [hred]
    exact hi.claves
  · rw [hred] at hd
    exact Or.inl ⟨hd, hi.clave_ne hd hfuera⟩

/-- The CR of a `t_connect` that takes the cell `buscar_celda_libre` gives. -/
def datagramaCR (a : InAddr) (k : KernelShm) (destino origen : TDireccion) : Datagrama :=
  ⟨a, destino.ip, (bufferCR (proximoBuffer k) (buscarCeldaLibre k) destino origen).pkt⟩

theorem Acorde.conecta (hi : Acorde σ) {x : InAddr} {s' : Estado} {pid : Int}
    {destino origen : TDireccion} (hc : Cuadra s') (hs : SinEnvios s')
    (hlibre : ¬(σ.nodos x).kernel.ocupada (buscarCeldaLibre (σ.nodos x).kernel))
    (hk : s'.kernel = (σ.nodos x).kernel.trasConnect pid destino origen)
    (hab : ∀ i, i ≠ buscarCeldaLibre (σ.nodos x).kernel →
      AbiertaListen (σ.nodos x) i → AbiertaListen s' i)
    (hu : s'.ultima = trazaConnect (σ.nodos x).kernel destino origen) :
    Acorde (σ.tras x σ.red s') := by
  have hcerrada := hi.cerrada hlibre
  have hself : (σ.tras x σ.red s').celda x (buscarCeldaLibre (σ.nodos x).kernel) =
      (σ.nodos x).kernel.celdaConnect pid destino origen (buscarCeldaLibre (σ.nodos x).kernel) := by
    rw [tras_celda_self, hk, trasConnect_self]
  have hest : ((σ.tras x σ.red s').celda x (buscarCeldaLibre (σ.nodos x).kernel)).estadoCx =
      .connect := congrArg Conexion.estadoCx hself
  have hvieja : ∀ d ∈ σ.red, clave d ≠ (x, buscarCeldaLibre (σ.nodos x).kernel) :=
    fun d hd => hi.clave_ne hd fun _ => by simp [hcerrada]
  have hred : (σ.tras x σ.red s').red =
      σ.red ++ [datagramaCR x (σ.nodos x).kernel destino origen] := by
    unfold Sistema.tras
    rw [hu, envios_trazaConnect]
    rfl
  refine Acorde.celda
    (tras_conserva (fun i _ hne => by rw [hk, trasConnect_of_ne _ _ _ hne]) hab)
    (fun _ => by simp [hcerrada]) hi (tras_forall hi.cuadra hc) (tras_forall hi.sinEnvios hs)
    (fun _ _ => ?_) (fun _ e => absurd (hest.symm.trans e) (by simp))
    (fun _ e => absurd (hest.symm.trans e) (by simp)) ?_ fun d hd => ?_
  · have hocu := ocupada_trasConnect (k := (σ.nodos x).kernel) pid destino origen
    rwa [tras_celda_self, hk]
  · rw [hred]
    exact hi.claves.send hvieja
  · rw [hred] at hd
    rcases List.mem_append.mp hd with hd | hd
    · exact Or.inl ⟨hd, hvieja d hd⟩
    · obtain rfl := List.mem_singleton.mp hd
      exact Or.inr (.cr rfl (buscarCeldaLibre_enTabla _) hest (congrArg Conexion.ipDestino hself) rfl
        (congrArg Conexion.puertoDestino hself) (congrArg Conexion.puertoOrigen hself))

theorem Acorde.escuchaNueva (hi : Acorde σ) {x : InAddr} {s' : Estado} {pid : Int}
    {escucha : TDireccion} {remota : Option TDireccion} (hc : Cuadra s') (hs : SinEnvios s')
    (hlibre : ¬(σ.nodos x).kernel.ocupada (buscarCeldaLibre (σ.nodos x).kernel))
    (hk : s'.kernel = (σ.nodos x).kernel.trasListen pid escucha remota)
    (hab : ∀ i, i ≠ buscarCeldaLibre (σ.nodos x).kernel →
      AbiertaListen (σ.nodos x) i → AbiertaListen s' i)
    (hlisten : AbiertaListen s' (buscarCeldaLibre (σ.nodos x).kernel))
    (hu : envios s'.ultima = []) : Acorde (σ.tras x σ.red s') := by
  have hcerrada := hi.cerrada hlibre
  have hest : ((σ.tras x σ.red s').celda x (buscarCeldaLibre (σ.nodos x).kernel)).estadoCx =
      .listen := by
    rw [tras_celda_self, hk, estado_trasListen]
  have hred : (σ.tras x σ.red s').red = σ.red := by
    simp [Sistema.tras, hu]
  refine Acorde.celda
    (tras_conserva (fun i _ hne => by rw [hk, trasListen_of_ne _ _ _ hne]) hab)
    (fun _ => by simp [hcerrada]) hi (tras_forall hi.cuadra hc) (tras_forall hi.sinEnvios hs)
    (fun _ _ => ?_) (fun _ _ => ?_) (fun _ e => absurd (hest.symm.trans e) (by simp)) ?_
    fun d hd => ?_
  · have hocu := ocupada_trasListen (k := (σ.nodos x).kernel) pid escucha remota
    rwa [tras_celda_self, hk]
  · rw [tras_nodos_self]
    exact hlisten
  · rw [hred]
    exact hi.claves
  · rw [hred] at hd
    exact Or.inl ⟨hd, hi.clave_ne hd fun _ => by simp [hcerrada]⟩

theorem Acorde.interno (hi : Acorde σ) {x : InAddr} {s' : Estado} (hc : Cuadra s')
    (hs : SinEnvios s') (h : Interno (σ.nodos x) s') : Acorde (σ.tras x σ.red s') := by
  cases h with
  | quieto hk hab hu => exact hi.quieto hc hs hk hab hu
  | connect hlibre hk hab hu => exact hi.conecta hc hs hlibre hk hab hu
  | listen hlibre hk hab hself hu => exact hi.escuchaNueva hc hs hlibre hk hab hself hu

/-! ## Deliveries -/

/-- The answer of the host to the CR `d`. -/
def datagramaCC (k : KernelShm) (d : Datagrama) : Datagrama :=
  ⟨d.destino, d.origen, (k.bufferCC d.origen d.tpdu).pkt⟩

theorem clave_datagramaCC {k : KernelShm} (ht : d.tpdu.cabecera.tipo = tipoCR) :
    clave (datagramaCC k d) = clave d := by
  have hno : d.tpdu.cabecera.tipo ≠ tipoCC := tipoCR_ne_tipoCC ht
  unfold clave
  rw [if_neg hno, if_pos (by rfl)]
  rfl

theorem envios_trazaCC (k : KernelShm) (h : CabTcp) : envios (trazaCC k h) = [] := by
  unfold trazaCC
  dsimp only
  by_cases hneg : h.conexionAceptada < 0
  · rw [if_pos hneg]
    rfl
  · rw [if_neg hneg]
    split <;> rfl

theorem abiertaListen_trasRecibir {s : Estado} (p : Tpdu) (para : Option ℕ) (m : Mundo) (i : Int)
    (h : AbiertaListen s i) : AbiertaListen (s.trasRecibir p para m) i := by
  refine abiertaListen_of i ?_ (ficha_mono_of_eq (ficha_trasRecibir p para m)) h
  rfl

theorem Acorde.entregaCC (hi : Acorde σ) (hd : d ∈ σ.red) (ht : d.tpdu.cabecera.tipo = tipoCC)
    {s' : Estado} {para : Option ℕ} (hs' : s' = (σ.nodos d.destino).trasRecibir d.tpdu para
      ⟨(σ.nodos d.destino).kernel.trasCC d.tpdu.cabecera,
        trazaCC (σ.nodos d.destino).kernel d.tpdu.cabecera⟩)
    (hc : Cuadra s') (hs : SinEnvios s') : Acorde (σ.tras d.destino (σ.red.erase d) s') := by
  have hself : (σ.tras d.destino (σ.red.erase d) s').celda d.destino d.tpdu.cabecera.idDestino =
      (σ.celda d.destino d.tpdu.cabecera.idDestino).recibeCC d.tpdu.cabecera := by
    rw [tras_celda_self, hs']
    exact trasCC_self _
  have hred : (σ.tras d.destino (σ.red.erase d) s').red = σ.red.erase d := by
    subst hs'
    simp [Sistema.tras, Estado.trasRecibir, envios_trazaCC]
  have hclave : clave d = (d.destino, d.tpdu.cabecera.idDestino) := if_pos ht
  have hmarco : ∀ a i, EnTabla i → (a, i) ≠ (d.destino, d.tpdu.cabecera.idDestino) →
      Conserva σ (σ.tras d.destino (σ.red.erase d) s') a i := by
    subst hs'
    exact tras_conserva (fun i _ hne => trasCC_of_ne hne)
      fun i _ => abiertaListen_trasRecibir _ _ _ i
  obtain ⟨hres, hotras⟩ := hi.claves.erase hd
  cases hi.enVuelo d hd with
  | cr ht' => exact absurd (ht.symm.trans ht') (by decide)
  | cc _ hen hest hip hpos =>
      have hno : EnTabla d.tpdu.cabecera.idDestino →
          (σ.celda d.destino d.tpdu.cabecera.idDestino).estadoCx ≠ .established := by
        intro _
        simp [hest]
      refine hi.celda hmarco hno (tras_forall hi.cuadra hc) (tras_forall hi.sinEnvios hs)
        (fun _ hest' => ?_) (fun _ hest' => ?_) (fun _ hest' => ?_) ?_ fun d' hd' => ?_
      · rw [hself, Conexion.recibeCC] at hest' ⊢
        by_cases hneg : d.tpdu.cabecera.conexionAceptada < 0
        · rw [if_pos hneg] at hest'
          exact absurd rfl hest'
        · rw [if_neg hneg]
          exact hi.ocupada _ _ hen (by simp [hest])
      · rw [hself, Conexion.recibeCC] at hest'
        split at hest' <;> exact absurd hest' (by simp)
      · rw [hself, Conexion.recibeCC] at hest'
        by_cases hneg : d.tpdu.cabecera.conexionAceptada < 0
        · rw [if_pos hneg] at hest'
          exact absurd hest' (by simp)
        · have hserv := hpos hneg
          have hcelda := hself
          rw [Conexion.recibeCC, if_neg hneg] at hcelda
          have hpd : ((σ.tras d.destino (σ.red.erase d) s').celda d.destino
              d.tpdu.cabecera.idDestino).puertoDestino =
                (σ.celda d.destino d.tpdu.cabecera.idDestino).puertoDestino := by rw [hcelda]
          have hpo : ((σ.tras d.destino (σ.red.erase d) s').celda d.destino
              d.tpdu.cabecera.idDestino).puertoOrigen =
                (σ.celda d.destino d.tpdu.cabecera.idDestino).puertoOrigen := by rw [hcelda]
          have hipd : ((σ.tras d.destino (σ.red.erase d) s').celda d.destino
              d.tpdu.cabecera.idDestino).ipDestino =
                (σ.celda d.destino d.tpdu.cabecera.idDestino).ipDestino := by rw [hcelda]
          have hid : ((σ.tras d.destino (σ.red.erase d) s').celda d.destino
              d.tpdu.cabecera.idDestino).idDestino = d.tpdu.cabecera.idLocal := by rw [hcelda]
          refine Or.inr ?_
          unfold Emparejada
          rw [hid, hipd, hip]
          exact hserv.conserva hpd hpo hipd
            (conserva_of_established hmarco hno hserv.enTabla hserv.established)
      · rw [hred]
        exact hres
      · rw [hred] at hd'
        rw [← hclave]
        exact Or.inl ⟨List.mem_of_mem_erase hd', hotras d' hd'⟩

section EntregaCR
variable {s' : Estado} {para : Option ℕ}

theorem red_entregaCR (hs' : s' = (σ.nodos d.destino).trasRecibir d.tpdu para
      ⟨(σ.nodos d.destino).kernel.trasCR d.origen d.tpdu,
        trazaCR (σ.nodos d.destino).kernel d.origen d.tpdu⟩) :
    (σ.tras d.destino (σ.red.erase d) s').red =
      σ.red.erase d ++ [datagramaCC (σ.nodos d.destino).kernel d] := by
  subst hs'
  rfl

theorem Acorde.claves_entregaCR (hi : Acorde σ) (hd : d ∈ σ.red) (ht : d.tpdu.cabecera.tipo = tipoCR)
    (hs' : s' = (σ.nodos d.destino).trasRecibir d.tpdu para
      ⟨(σ.nodos d.destino).kernel.trasCR d.origen d.tpdu,
        trazaCR (σ.nodos d.destino).kernel d.origen d.tpdu⟩) :
    OnePerKey clave (σ.tras d.destino (σ.red.erase d) s').red := by
  rw [red_entregaCR hs']
  exact hi.claves.answer hd (clave_datagramaCC ht)

/-- The datagrams left are those for other cells and the answer. -/
theorem Acorde.enVuelo_entregaCR (hi : Acorde σ) (hs' : s' = (σ.nodos d.destino).trasRecibir d.tpdu para
      ⟨(σ.nodos d.destino).kernel.trasCR d.origen d.tpdu,
        trazaCR (σ.nodos d.destino).kernel d.origen d.tpdu⟩) {i : Int}
    (hno : EnTabla i → (σ.celda d.destino i).estadoCx ≠ .connect)
    (hresp : EnVuelo (σ.tras d.destino (σ.red.erase d) s') (datagramaCC (σ.nodos d.destino).kernel d)) :
    ∀ d' ∈ (σ.tras d.destino (σ.red.erase d) s').red, d' ∈ σ.red ∧ clave d' ≠ (d.destino, i) ∨
      EnVuelo (σ.tras d.destino (σ.red.erase d) s') d' := by
  intro d' hd'
  rw [red_entregaCR hs'] at hd'
  rcases List.mem_append.mp hd' with hd' | hd'
  · have hviejo := List.mem_of_mem_erase hd'
    exact Or.inl ⟨hviejo, hi.clave_ne hviejo hno⟩
  · obtain rfl := List.mem_singleton.mp hd'
    exact Or.inr hresp

theorem Acorde.entregaCR_noTsap (hi : Acorde σ) (hd : d ∈ σ.red)
    (ht : d.tpdu.cabecera.tipo = tipoCR) (hs' : s' = (σ.nodos d.destino).trasRecibir d.tpdu para
      ⟨(σ.nodos d.destino).kernel.trasCR d.origen d.tpdu,
        trazaCR (σ.nodos d.destino).kernel d.origen d.tpdu⟩)
    (hc : Cuadra s') (hs : SinEnvios s')
    (hnadie : asignConexionCR d.tpdu (σ.nodos d.destino).kernel = exNoTsap) :
    Acorde (σ.tras d.destino (σ.red.erase d) s') := by
  have hfuera : ∀ {p : Prop}, EnTabla exNoTsap → p := fun h => absurd h not_enTabla_exNoTsap
  have hmarco : ∀ a i, EnTabla i → (a, i) ≠ (d.destino, exNoTsap) →
      Conserva σ (σ.tras d.destino (σ.red.erase d) s') a i := by
    subst hs'
    exact tras_conserva (fun i hi' _ => trasCR_of_noTsap hnadie hi')
      fun i _ => abiertaListen_trasRecibir _ _ _ i
  refine hi.celda hmarco hfuera (tras_forall hi.cuadra hc) (tras_forall hi.sinEnvios hs) hfuera hfuera
    hfuera (hi.claves_entregaCR hd ht hs') (hi.enVuelo_entregaCR hs' hfuera ?_)
  cases hi.enVuelo d hd with
  | cc ht' => exact absurd (ht.symm.trans ht') (by decide)
  | cr _ hen hest hip =>
      have hcx := (hmarco d.origen _ hen fun e => hfuera ((Prod.mk.inj e).2 ▸ hen)).1
      refine .cc rfl hen ((congrArg Conexion.estadoCx hcx).trans hest)
        ((congrArg Conexion.ipDestino hcx).trans hip) fun hpos => absurd ?_ hpos
      show (if asignConexionCR d.tpdu (σ.nodos d.destino).kernel = exNoTsap then
        asignConexionCR d.tpdu (σ.nodos d.destino).kernel else 1) < 0
      rw [if_pos hnadie, hnadie]
      decide

theorem Acorde.entregaCR_listen (hi : Acorde σ) (hd : d ∈ σ.red)
    (ht : d.tpdu.cabecera.tipo = tipoCR) (hs' : s' = (σ.nodos d.destino).trasRecibir d.tpdu para
      ⟨(σ.nodos d.destino).kernel.trasCR d.origen d.tpdu,
        trazaCR (σ.nodos d.destino).kernel d.origen d.tpdu⟩)
    (hc : Cuadra s') (hs : SinEnvios s')
    (hen : EnTabla (asignConexionCR d.tpdu (σ.nodos d.destino).kernel))
    (hencaja : encaja (σ.celda d.destino (asignConexionCR d.tpdu (σ.nodos d.destino).kernel))
      d.tpdu.cabecera) :
    Acorde (σ.tras d.destino (σ.red.erase d) s') := by
  generalize hj : asignConexionCR d.tpdu (σ.nodos d.destino).kernel = j at hen hencaja
  have hlisten := encaja_listen hencaja
  have hab := hi.escucha d.destino j hen hlisten
  have hno : EnTabla j → (σ.celda d.destino j).estadoCx ≠ .established := fun _ => by simp [hlisten]
  have hself : (σ.tras d.destino (σ.red.erase d) s').celda d.destino j =
      (σ.celda d.destino j).aceptaCR d.origen d.tpdu.cabecera := by
    rw [tras_celda_self, hs', ← hj]
    exact trasCR_of_enTabla (hj ▸ hen)
  have hest : ((σ.tras d.destino (σ.red.erase d) s').celda d.destino j).estadoCx = .established := by
    rw [hself]
    rfl
  have hmarco : ∀ a i, EnTabla i → (a, i) ≠ (d.destino, j) →
      Conserva σ (σ.tras d.destino (σ.red.erase d) s') a i := by
    subst hs'
    exact tras_conserva (fun i _ hne => trasCR_of_ne (by rw [hj]; exact hne))
      fun i _ => abiertaListen_trasRecibir _ _ _ i
  have hab' : AbiertaListen ((σ.tras d.destino (σ.red.erase d) s').nodos d.destino) j := by
    rw [tras_nodos_self, hs']
    exact abiertaListen_trasRecibir _ _ _ j hab
  refine hi.celda hmarco hno (tras_forall hi.cuadra hc) (tras_forall hi.sinEnvios hs) (fun _ _ => ?_)
    (fun _ e => absurd (hest.symm.trans e) (by simp)) (fun _ _ => Or.inl hab')
    (hi.claves_entregaCR hd ht hs') (hi.enVuelo_entregaCR hs' (fun _ => by simp [hlisten]) ?_)
  · rw [hself]
    exact hi.ocupada d.destino j hen (by simp [hlisten])
  · cases hi.enVuelo d hd with
    | cc ht' => exact absurd (ht.symm.trans ht') (by decide)
    | cr _ hen' hcon hip hdest hpd hpo =>
        have hne : (d.origen, d.tpdu.cabecera.idLocal) ≠ (d.destino, j) := by
          intro e
          obtain ⟨e₁, e₂⟩ := Prod.mk.inj e
          rw [e₁, e₂, hlisten] at hcon
          exact absurd hcon (by simp)
        have hcx := (hmarco d.origen _ hen' hne).1
        have hserv : Servida (σ.tras d.destino (σ.red.erase d) s') d.origen
            d.tpdu.cabecera.idLocal d.destino j :=
          { enTabla := hen
            established := hest
            listen := hab'
            idDestino := by rw [hself]; rfl
            puertoDestino := by rw [hcx, hself, hpd]; exact hencaja.2.1
            puertoOrigen := by rw [hcx, hself, hpo]; rfl
            ipLocal := by
              rw [hcx, hself]
              exact (hip.trans hdest.symm).trans hencaja.1
            ipDestino := by rw [hself]; rfl }
        rw [← hj] at hserv
        exact .cc rfl hen' ((congrArg Conexion.estadoCx hcx).trans hcon)
          ((congrArg Conexion.ipDestino hcx).trans hip) fun _ => hserv

end EntregaCR

/-! ## Every run -/

theorem Acorde.entrega (hi : Acorde σ) (hd : d ∈ σ.red) {s' : Estado} {para : Option ℕ}
    (h : Transita (σ.nodos d.destino) (.recibe d.origen d.tpdu para) s') :
    Acorde (σ.tras d.destino (σ.red.erase d) s') := by
  have hc := cuadra_transita (hi.cuadra d.destino) h
  have hs := sinEnvios_transita (hi.sinEnvios d.destino) (by simp) h
  cases h with
  | recibe hsem hdae he =>
      cases he with
      | cc ht => exact hi.entregaCC hd ht rfl hc hs
      | cr ht =>
          rcases asignConexionCR_cases d.tpdu (σ.nodos d.destino).kernel with ⟨hen, hencaja⟩ | hnadie
          · exact hi.entregaCR_listen hd ht rfl hc hs hen hencaja
          · exact hi.entregaCR_noTsap hd ht rfl hc hs hnadie
      | otro hcc hcr =>
          cases hi.enVuelo d hd with
          | cr ht => exact absurd ht hcr
          | cc ht => exact absurd ht hcc

theorem Acorde.pierde (hi : Acorde σ) (hd : d ∈ σ.red) :
    Acorde { σ with red := σ.red.erase d } := by
  obtain ⟨hres, -⟩ := hi.claves.erase hd
  have hfuera : ∀ {p : Prop}, EnTabla exNoTsap → p := fun h => absurd h not_enTabla_exNoTsap
  have hmarco : ∀ a i, EnTabla i → (a, i) ≠ (d.destino, exNoTsap) →
      Conserva σ { σ with red := σ.red.erase d } a i := fun _ _ _ _ => ⟨rfl, id⟩
  refine hi.celda hmarco hfuera hi.cuadra hi.sinEnvios hfuera hfuera hfuera hres fun d' hd' => ?_
  have hviejo := List.mem_of_mem_erase hd'
  exact Or.inl ⟨hviejo, hi.clave_ne hviejo hfuera⟩

theorem acorde_paso {e : Evento} (hi : Acorde σ) (h : paso σ e = some σ') : Acorde σ' := by
  cases e with
  | nodo a e =>
      rw [paso] at h
      by_cases he : interno e = true
      · rw [if_pos he] at h
        obtain ⟨s', hs', rfl⟩ := Option.map_eq_some_iff.mp h
        have ht := transita_of_paso hs'
        refine hi.interno (cuadra_transita (hi.cuadra a) ht) (sinEnvios_transita (hi.sinEnvios a) ?_ ht)
          (interno_transita (hi.cuadra a) (hi.sinEnvios a) he ht)
        rintro en id datos longitud rfl
        exact absurd he (by simp [interno])
      · rw [if_neg he] at h
        exact absurd h (by simp)
  | entrega d para =>
      rw [paso] at h
      by_cases hd : d ∈ σ.red
      · rw [if_pos hd] at h
        obtain ⟨s', hs', rfl⟩ := Option.map_eq_some_iff.mp h
        exact hi.entrega hd (transita_of_paso hs')
      · rw [if_neg hd] at h
        exact absurd h (by simp)
  | pierde d =>
      rw [paso] at h
      by_cases hd : d ∈ σ.red
      · rw [if_pos hd] at h
        obtain rfl := Option.some.inj h
        exact hi.pierde hd
      · rw [if_neg hd] at h
        exact absurd h (by simp)

section Runs
variable {interfaz : InAddr → String} {numBufPkts : InAddr → UInt16}
  {fuera : InAddr → Int → Conexion} {basura : InAddr → ℕ → BufPkt} {es : List Evento}

def kernels (interfaz : InAddr → String) (numBufPkts : InAddr → UInt16)
    (fuera : InAddr → Int → Conexion) (basura : InAddr → ℕ → BufPkt) (a : InAddr) : KernelShm :=
  kernelInicial (interfaz a) (numBufPkts a) (fuera a) (basura a)

theorem acorde_inicial : Acorde (inicial (kernels interfaz numBufPkts fuera basura)) := by
  have hcerrada : ∀ a i, EnTabla i →
      ((inicial (kernels interfaz numBufPkts fuera basura)).celda a i).estadoCx = .closed := by
    intro a i hi
    simp [Sistema.celda, inicial, Nodo.inicial, kernels, kernelInicial, iniciaKernel,
      inicializarCXsLibres, hi]
  exact
    { cuadra := fun a => cuadra_inicial (interfaz a) (numBufPkts a) (fuera a) (basura a)
      sinEnvios := fun a h l hl => by simp [inicial, Nodo.inicial, Estado.pendiente] at hl
      ocupada := fun a i hi hest => absurd (hcerrada a i hi) hest
      escucha := fun a i hi hest => absurd ((hcerrada a i hi).symm.trans hest) (by simp)
      claves := List.nodup_nil
      enVuelo := fun d hd => absurd hd (by simp [inicial])
      pareja := fun a i hi hest => absurd ((hcerrada a i hi).symm.trans hest) (by simp) }

theorem acorde_run (hr : run paso (inicial (kernels interfaz numBufPkts fuera basura)) es = some σ) :
    Acorde σ :=
  run_invariant Acorde (fun _ _ _ => True) (fun _ _ _ hi _ h => acorde_paso hi h) acorde_inicial
    (Along.of_true (fun _ _ _ _ => trivial) es _) hr

theorem acuerdo (hr : run paso (inicial (kernels interfaz numBufPkts fuera basura)) es = some σ) :
    Acordadas σ := by
  have hi := acorde_run hr
  have hpareja : ∀ a i, EnTabla i → (σ.celda a i).estadoCx = .established →
      AbiertaConnect (σ.nodos a) i → Emparejada σ a i := by
    intro a i hen hest hcon
    exact (hi.pareja a i hen hest).resolve_left (not_abiertaListen hcon)
  refine ⟨hpareja, ?_⟩
  intro a i a' i' hen hest hcon hen' hest' hcon' hip hid
  have hemp := hpareja a i hen hest hcon
  have hemp' := hpareja a' i' hen' hest' hcon'
  unfold Emparejada at hemp hemp'
  rw [← hip, ← hid] at hemp'
  exact ⟨hemp.ipDestino.symm.trans hemp'.ipDestino, hemp.idDestino.symm.trans hemp'.idDestino⟩

end Runs

/-- The host `10.0.0.2` listens at port 80, the host `10.0.0.1` connects to it, and the CR and its
answer arrive. -/
def saludo : List Evento :=
  let cr := datagramaCR 0x0a000001 kernelPorDefecto ⟨0x0a000002, 80⟩ ⟨0x0a000001, 1000⟩
  let cc := datagramaCC (kernelPorDefecto.trasListen 0 ⟨0x0a000002, 80⟩ none) cr
  [.nodo 0x0a000002 (.llama (.listen entornoVacio ⟨0x0a000002, 80⟩ none)),
    .nodo 0x0a000001 (.llama (conecta 80 1000)), .entrega cr none, .entrega cc (some 0)]

end Ltm.Red
