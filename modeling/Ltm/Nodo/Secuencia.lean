import Ltm.Nodo.Traslado
import Ltm.Foundations.Runs

/-! # The numbers of the pending packets

Every `t_send` numbers its packets from 0 on, whatever its connection still has in `TX`. The numbers of
the pending DATOS packets increase as long as each section of `t_send` that sends goes on above all of
them.
-/

namespace Ltm.Nodo
open Kernel Runs
set_option autoImplicit false
set_option maxHeartbeats 250000

/-- The numbers of the DATOS packets of a list, in its order. -/
def numerosDatos (TX : List BufPkt) : List Int :=
  (TX.filter fun b => b.pkt.cabecera.tipo = tipoDatos).map BufPkt.numSecuencia

/-- In every cell of the table the pending DATOS packets have increasing numbers. -/
def Numerados (k : KernelShm) : Prop :=
  ∀ i, EnTabla i → (numerosDatos (k.CXs i).TX).Pairwise (· < ·)

/-- A section of `t_send` that sends a packet has numbers above those of all pending ones. -/
def SigueNumeros (s : Estado) (e : Suceso) : Prop :=
  ∀ l n, envioDe s e = some (l, n) → EnTabla l.id → 0 < n →
    (s.kernel.CXs l.id).TX.length < s.kernel.numBufPkts.toNat →
      ∀ v ∈ numerosDatos (s.kernel.CXs l.id).TX, v < l.numeroSecuencia

variable {s s' : Estado} {k k' : KernelShm} {bs : List BufPkt}

theorem numerosDatos_append (TX TX' : List BufPkt) :
    numerosDatos (TX ++ TX') = numerosDatos TX ++ numerosDatos TX' := by
  unfold numerosDatos
  rw [List.filter_append, List.map_append]

theorem numerosDatos_sublist {TX TX' : List BufPkt} (h : TX'.Sublist TX) :
    (numerosDatos TX').Sublist (numerosDatos TX) := (h.filter _).map _

/-- What a section of `t_send` sends is numbered from its own next number on. -/
theorem numeros_envia {l : SendLocal} {n : ℕ} (h : Envia l n k k' bs) :
    numerosDatos bs = (List.range bs.length).map fun j : ℕ => l.numeroSecuencia + j := by
  have hall : bs.filter (fun b => b.pkt.cabecera.tipo = tipoDatos) = bs := by
    refine List.filter_eq_self.mpr fun b hb => ?_
    obtain ⟨j, hj⟩ := List.mem_iff_getElem?.mp hb
    simpa using (h.datos j b hj).1
  rw [numerosDatos, hall]
  apply List.ext_getElem
  · simp
  · intro j h1 h2
    have hj : j < bs.length := by simpa using h1
    simpa using (h.datos j bs[j] (List.getElem?_eq_getElem hj)).2

/-- Consecutive numbers from `v` on, behind increasing ones. -/
theorem pairwise_append_consecutivos {ns : List Int} (hns : ns.Pairwise (· < ·)) (v : Int) (m : ℕ) :
    (ns ++ (List.range m).map fun j : ℕ => v + j).Pairwise (· < ·) ↔ 0 < m → ∀ a ∈ ns, a < v := by
  have hnuevos : ((List.range m).map fun j : ℕ => v + j).Pairwise (· < ·) := by
    rw [List.pairwise_map]
    exact List.pairwise_lt_range.imp fun h => by omega
  rw [List.pairwise_append]
  constructor
  · rintro ⟨-, -, hcruce⟩ hm a ha
    have hcero : v + (0 : ℕ) ∈ (List.range m).map fun j : ℕ => v + j :=
      List.mem_map.mpr ⟨0, List.mem_range.mpr hm, rfl⟩
    have := hcruce a ha _ hcero
    omega
  · intro h
    refine ⟨hns, hnuevos, fun a ha b hb => ?_⟩
    obtain ⟨j, hj, rfl⟩ := List.mem_map.mp hb
    have hm : 0 < m := by
      have := List.mem_range.mp hj
      omega
    have := h hm a ha
    omega

theorem numerados_envia {l : SendLocal} {n : ℕ} (hi : Numerados k) (h : Envia l n k k' bs) :
    Numerados k' ↔ (EnTabla l.id → 0 < n → (k.CXs l.id).TX.length < k.numBufPkts.toNat →
      ∀ v ∈ numerosDatos (k.CXs l.id).TX, v < l.numeroSecuencia) := by
  have hcelda : numerosDatos (k'.CXs l.id).TX = numerosDatos (k.CXs l.id).TX ++
      (List.range bs.length).map fun j : ℕ => l.numeroSecuencia + j := by
    obtain ⟨d, hd⟩ := h.celda
    rw [hd, numerosDatos_append, numeros_envia h]
  have hlong : 0 < bs.length ↔ 0 < n ∧ (k.CXs l.id).TX.length < k.numBufPkts.toNat := by
    rw [h.cuantos]
    omega
  constructor
  · intro hi' ht hn hlt
    have hpar := hi' l.id ht
    rw [hcelda, pairwise_append_consecutivos (hi l.id ht)] at hpar
    exact hpar (hlong.mpr ⟨hn, hlt⟩)
  · intro hok i ht
    by_cases e : i = l.id
    · subst e
      rw [hcelda, pairwise_append_consecutivos (hi l.id ht)]
      exact fun hm => hok ht (hlong.mp hm).1 (hlong.mp hm).2
    · rw [h.otras i e]
      exact hi i ht

/-- A step that takes from the `TX` lists, or puts there what is no DATOS packet. -/
theorem Numerados.conserva (hi : Numerados k)
    (h : ∀ i, (numerosDatos (k'.CXs i).TX).Sublist (numerosDatos (k.CXs i).TX)) : Numerados k' :=
  fun i ht => (hi i ht).sublist (h i)

theorem numerosDatos_trasConnect (pid : Int) (destino origen : TDireccion) (i : Int) :
    numerosDatos ((k.trasConnect pid destino origen).CXs i).TX = numerosDatos (k.CXs i).TX := by
  by_cases e : i = buscarCeldaLibre k
  · rw [e, trasConnect_self, KernelShm.celdaConnect, numerosDatos_append]
    exact List.append_nil _
  · rw [trasConnect_of_ne pid destino origen e]

/-- A step keeps the numbers increasing just if it is no `t_send` that falls back behind a pending
packet. -/
theorem numerados_iff_sigue {e : Suceso} (hi : Numerados s.kernel) (h : paso s e = some s') :
    Numerados s'.kernel ↔ SigueNumeros s e := by
  have ht := traslado_of_paso h
  generalize s'.kernel = k' at ht
  cases ht with
  | envia he hbs =>
      rw [numerados_envia hi hbs]
      constructor
      · intro hok l n he'
        obtain ⟨rfl, rfl⟩ := Prod.mk.inj (Option.some.inj (he.symm.trans he'))
        exact hok
      · exact fun hok => hok _ _ he
  | conecta e destino origen origen' =>
      refine iff_of_true (hi.conserva fun i => ?_) fun l n he => absurd he (by simp [envioDe])
      rw [numerosDatos_trasConnect]
  | confirma =>
      refine iff_of_true (hi.conserva fun i => ?_) fun l n he => absurd he (by simp [envioDe])
      exact numerosDatos_sublist (sublist_trasCC _ i)
  | responde =>
      refine iff_of_true (hi.conserva fun i => ?_) fun l n he => absurd he (by simp [envioDe])
      rw [TX_trasCR]
  | quieto he hc hbuf =>
      refine iff_of_true (hi.conserva fun i => ?_) fun l n he' => absurd (he.symm.trans he') (by simp)
      rw [hbuf.TX]

theorem numerados_inicial (interfaz : String) (numBufPkts : UInt16) (fuera : Int → Conexion)
    (basura : ℕ → BufPkt) : Numerados (kernelInicial interfaz numBufPkts fuera basura) := by
  intro i hi
  simp [kernelInicial, iniciaKernel, inicializarCXsLibres, hi, numerosDatos]

/-- The pending DATOS packets of each cell of the table have increasing numbers at the start, and in
every run they keep them exactly as long as every section of `t_send` that sends goes on above the
pending ones. -/
theorem numerados_iff {interfaz : String} {numBufPkts : UInt16} {fuera : Int → Conexion}
    {basura : ℕ → BufPkt} (es : List Suceso) :
    Numerados (kernelInicial interfaz numBufPkts fuera basura) ∧
      (Along paso (fun _ _ s' => Numerados s'.kernel)
          (inicial (kernelInicial interfaz numBufPkts fuera basura)) es ↔
        Along paso (fun s e _ => SigueNumeros s e)
          (inicial (kernelInicial interfaz numBufPkts fuera basura)) es) :=
  have hi := numerados_inicial interfaz numBufPkts fuera basura
  ⟨hi, along_iff_along (fun s => Numerados s.kernel) (fun s e _ => SigueNumeros s e)
    (fun _ _ _ hi hok h => (numerados_iff_sigue hi h).mpr hok)
    (fun _ _ _ hi h => numerados_iff_sigue hi h) es hi⟩

/-- A connect that is accepted and returns, and two calls of `t_send` for a byte each. -/
def dosEnvios : List Suceso :=
  [.llama (conecta 80 1000), .recibe 0x0a000002 (ccPara 0 1) (some 0), .citaDaemon 0, .sigue 0,
    .llama (.send entornoVacio 0 (some [1]) 1), .llama (.send entornoVacio 0 (some [2]) 1)]

/-- Both packets have the number 0. -/
theorem no_numerados :
    ¬Along paso (fun _ _ s' => Numerados s'.kernel) (inicial kernelPorDefecto) dosEnvios := by
  have hrun : (run paso (inicial kernelPorDefecto) dosEnvios.dropLast).bind (fun s =>
      (paso s (.llama (.send entornoVacio 0 (some [2]) 1))).map fun s' =>
        numerosDatos (s'.kernel.CXs 0).TX) = some [0, 0] := by decide +kernel
  obtain ⟨s, hr, hs'⟩ := Option.bind_eq_some_iff.mp hrun
  obtain ⟨s', hs, hval⟩ := Option.map_eq_some_iff.mp hs'
  intro h
  have htodos : dosEnvios = dosEnvios.dropLast ++ [.llama (.send entornoVacio 0 (some [2]) 1)] := rfl
  rw [htodos] at h
  have hpar := h.last hr hs 0 (by decide)
  rw [hval] at hpar
  exact absurd hpar (by decide)

end Ltm.Nodo
