import Ltm.Kernel.Bufferes

/-! # Every buffer in one list

The list nodes that have been created, told apart by `nodo`, are those of `buffers_libres` and of the
`TX` lists of the table, each in one list and once (`Repartido`). A `splice` keeps this, whatever it
moves, as long as it moves between these lists.
-/

namespace Ltm.Kernel
set_option autoImplicit false
set_option maxHeartbeats 250000

def Conexion.nodosTX (c : Conexion) : List ℕ := c.TX.map BufPkt.nodo

def KernelShm.nodosTX (k : KernelShm) : List ℕ :=
  (List.range numMaxCXs).flatMap fun i : ℕ => (k.CXs i).nodosTX

/-- The nodes of all `TX` lists but that of the cell `n`. -/
def KernelShm.nodosOtras (k : KernelShm) (n : ℕ) : List ℕ :=
  ((List.range numMaxCXs).erase n).flatMap fun i : ℕ => (k.CXs i).nodosTX

def Repartido (k : KernelShm) : Prop :=
  (k.nodosLibres ++ k.nodosTX).Perm (List.range k.nodos)

variable {k k' : KernelShm} {i : Int} {n m : ℕ} {b : BufPkt} {bs : List BufPkt}

theorem mem_nodosTX : m ∈ k.nodosTX ↔ ∃ i, EnTabla i ∧ m ∈ (k.CXs i).nodosTX := by
  rw [KernelShm.nodosTX, List.mem_flatMap]
  constructor
  · rintro ⟨n, hn, hm⟩
    exact ⟨n, enTabla_natCast.mpr (List.mem_range.mp hn), hm⟩
  · rintro ⟨i, hi, hm⟩
    obtain ⟨n, hn, rfl⟩ := enTabla_iff.mp hi
    exact ⟨n, List.mem_range.mpr hn, hm⟩

theorem mem_nodosTX_of_mem (hi : EnTabla i) (hb : b ∈ (k.CXs i).TX) : b.nodo ∈ k.nodosTX :=
  mem_nodosTX.mpr ⟨i, hi, List.mem_map_of_mem hb⟩

/-! ## One list and the others -/

theorem count_nodosTX (hn : n < numMaxCXs) (m : ℕ) :
    k.nodosTX.count m = (k.CXs n).nodosTX.count m + (k.nodosOtras n).count m := by
  have hperm : (List.range numMaxCXs).Perm (n :: (List.range numMaxCXs).erase n) :=
    List.perm_cons_erase (List.mem_range.mpr hn)
  rw [KernelShm.nodosTX, (hperm.flatMap_right _).count_eq, List.flatMap_cons, List.count_append,
    KernelShm.nodosOtras]

theorem nodosOtras_congr (h : ∀ j, j ≠ (n : Int) → (k'.CXs j).TX = (k.CXs j).TX) :
    k'.nodosOtras n = k.nodosOtras n := by
  unfold KernelShm.nodosOtras
  refine List.flatMap_congr fun j hj => ?_
  have hne : j ≠ n := (List.nodup_range.mem_erase_iff.mp hj).1
  rw [Conexion.nodosTX, Conexion.nodosTX, h j (by omega)]

theorem nodosTX_congr (h : ∀ j, EnTabla j → (k'.CXs j).TX = (k.CXs j).TX) : k'.nodosTX = k.nodosTX := by
  unfold KernelShm.nodosTX
  refine List.flatMap_congr fun j hj => ?_
  rw [Conexion.nodosTX, Conexion.nodosTX, h j (enTabla_natCast.mpr (List.mem_range.mp hj))]

/-- The list of the cell `i` changes, and no other. -/
theorem count_nodosTX_cambia (hi : EnTabla i) (hne : ∀ j, j ≠ i → (k'.CXs j).TX = (k.CXs j).TX) (m : ℕ) :
    k'.nodosTX.count m + (k.CXs i).nodosTX.count m =
      k.nodosTX.count m + (k'.CXs i).nodosTX.count m := by
  obtain ⟨n, hn, rfl⟩ := enTabla_iff.mp hi
  rw [count_nodosTX hn, count_nodosTX hn, nodosOtras_congr hne]
  omega

theorem count_range_of_le (h : n ≤ m) (a : ℕ) :
    (List.range m).count a = (List.range n).count a + (List.range' n (m - n)).count a := by
  have happ := List.range'_append_1 (s := 0) (m := n) (n := m - n)
  rw [Nat.zero_add, Nat.add_sub_cancel' h] at happ
  rw [List.range_eq_range', List.range_eq_range', ← happ, List.count_append]

/-! ## What the moves keep -/

theorem Repartido.congr (hp : Repartido k) (hl : k'.nodosLibres = k.nodosLibres)
    (hn : k'.nodos = k.nodos) (hTX : ∀ j, EnTabla j → (k'.CXs j).TX = (k.CXs j).TX) : Repartido k' := by
  rw [Repartido, hl, hn, nodosTX_congr hTX]
  exact hp

/-- The buffers taken go to the end of a `TX` list. -/
theorem Repartido.toma (hp : Repartido k) (h : Toma k k' bs) (hi : EnTabla i)
    (hself : (k'.CXs i).TX = (k.CXs i).TX ++ bs)
    (hne : ∀ j, j ≠ i → (k'.CXs j).TX = (k.CXs j).TX) : Repartido k' := by
  apply List.perm_iff_count.mpr
  intro a
  have hantes := List.Perm.count_eq hp a
  have hmueve := congrArg (List.count a) h.reparto
  have hTX := count_nodosTX_cambia hi hne a
  have hcelda : (k'.CXs i).nodosTX = (k.CXs i).nodosTX ++ bs.map BufPkt.nodo := by
    rw [Conexion.nodosTX, hself, List.map_append, Conexion.nodosTX]
  rw [hcelda] at hTX
  simp only [List.count_append] at hantes hmueve hTX ⊢
  rw [count_range_of_le h.creados]
  omega

/-- The last buffer of a `TX` list goes to the end of the free list. -/
theorem Repartido.devuelve (hp : Repartido k) (hi : EnTabla i)
    (hl : k'.buffersLibres = k.buffersLibres ++ [b]) (hn : k'.nodos = k.nodos)
    (hself : (k.CXs i).TX = (k'.CXs i).TX ++ [b])
    (hne : ∀ j, j ≠ i → (k'.CXs j).TX = (k.CXs j).TX) : Repartido k' := by
  apply List.perm_iff_count.mpr
  intro a
  have hantes := List.Perm.count_eq hp a
  have hTX := count_nodosTX_cambia hi hne a
  have hcelda : (k.CXs i).nodosTX = (k'.CXs i).nodosTX ++ [b.nodo] := by
    rw [Conexion.nodosTX, hself, List.map_append, Conexion.nodosTX]
    rfl
  have hlibres : k'.nodosLibres = k.nodosLibres ++ [b.nodo] := by
    rw [KernelShm.nodosLibres, hl, List.map_append]
    rfl
  rw [hcelda] at hTX
  rw [hlibres, hn]
  simp only [List.count_append] at hantes hTX ⊢
  omega

/-- `buscar_buffer_libre` makes a buffer when there is none, and it stays in the free list. -/
theorem Repartido.crea (hp : Repartido k) (hl : k'.nodosLibres = (buscarBufferLibre k).nodosLibres)
    (hn : k'.nodos = (buscarBufferLibre k).nodos)
    (hTX : ∀ j, EnTabla j → (k'.CXs j).TX = (k.CXs j).TX) : Repartido k' := by
  by_cases hk : k.buffersLibres = []
  · have hl' : k'.nodosLibres = [k.nodos] := by
      rw [hl]
      simp [KernelShm.nodosLibres, buscarBufferLibre, proximoBuffer, hk]
    have hn' : k'.nodos = k.nodos + 1 := by
      rw [hn]
      simp [buscarBufferLibre, hk]
    have hlibres : k.nodosLibres = [] := by simp [KernelShm.nodosLibres, hk]
    rw [Repartido, hlibres, List.nil_append] at hp
    rw [Repartido, hl', hn', nodosTX_congr hTX, List.range_succ]
    exact (hp.cons k.nodos).trans (List.perm_append_singleton k.nodos _).symm
  · refine hp.congr (hl.trans ?_) (hn.trans ?_) hTX
    · simp [KernelShm.nodosLibres, buscarBufferLibre, hk]
    · simp [buscarBufferLibre, hk]

/-- The buffers that a step takes were in no `TX` list before. -/
theorem Toma.not_mem_nodosTX (h : Toma k k' bs) (hp : Repartido k) (hb : b ∈ bs) :
    b.nodo ∉ k.nodosTX := by
  intro hTX
  have hnodup : (k.nodosLibres ++ k.nodosTX).Nodup := (List.Perm.nodup_iff hp).mpr List.nodup_range
  have hviejo : b.nodo < k.nodos :=
    List.mem_range.mp ((List.Perm.mem_iff hp).mp (List.mem_append_right _ hTX))
  have hmem : b.nodo ∈ k.nodosLibres ++ List.range' k.nodos (k'.nodos - k.nodos) := by
    rw [← h.reparto]
    exact List.mem_append_left _ (List.mem_map_of_mem hb)
  rcases List.mem_append.mp hmem with hlibre | hnuevo
  · exact (List.nodup_append.mp hnodup).2.2 _ hlibre _ hTX rfl
  · have := (List.mem_range'_1.mp hnuevo).1
    omega

theorem Repartido.length (hp : Repartido k) :
    k.buffersLibres.length + k.nodosTX.length = k.nodos := by
  have := List.Perm.length_eq hp
  simpa [KernelShm.nodosLibres] using this

/-- Buffers that are taken and put in no list of the table are lost. -/
theorem Toma.not_repartido (h : Toma k k' bs) (hp : Repartido k) (hbs : bs ≠ [])
    (hTX : ∀ j, EnTabla j → (k'.CXs j).TX = (k.CXs j).TX) : ¬Repartido k' := by
  intro hp'
  have hlong := hp.length
  have hlong' := hp'.length
  have htoma := h.length
  have hcreados := h.creados
  have hpos := List.length_pos_of_ne_nil hbs
  rw [nodosTX_congr hTX] at hlong'
  omega

/-! ## The sections -/

theorem toma_trasConnect (pid : Int) (destino origen : TDireccion) : Toma k (k.trasConnect pid destino origen)
    [bufferCR (proximoBuffer k) (buscarCeldaLibre k) destino origen] :=
  toma_uno rfl rfl rfl

theorem Repartido.trasConnect (hp : Repartido k) (pid : Int) (destino origen : TDireccion) :
    Repartido (k.trasConnect pid destino origen) := by
  refine hp.toma (toma_trasConnect pid destino origen) (buscarCeldaLibre_enTabla k) ?_ fun j hj => ?_
  · rw [trasConnect_self]
    rfl
  · rw [trasConnect_of_ne pid destino origen hj]

theorem Repartido.trasCR (hp : Repartido k) (ipRemota : InAddr) (p : Tpdu) :
    Repartido (k.trasCR ipRemota p) := by
  refine hp.crea ?_ rfl fun j _ => TX_trasCR ipRemota p j
  by_cases hk : k.buffersLibres = []
  · simp [KernelShm.nodosLibres, KernelShm.trasCR, KernelShm.sinBuffer, KernelShm.bufferCC,
      buscarBufferLibre, hk]
  · obtain ⟨c, r, hcr⟩ := List.exists_cons_of_ne_nil hk
    simp [KernelShm.nodosLibres, KernelShm.trasCR, KernelShm.sinBuffer, KernelShm.bufferCC,
      buscarBufferLibre, proximoBuffer, hcr]

/-- A positive CC for a cell whose `TX` list is not empty. -/
theorem Repartido.trasCC (hp : Repartido k) {h : CabTcp} (hpos : ¬h.conexionAceptada < 0)
    (hi : EnTabla h.idDestino) (hlast : (k.CXs h.idDestino).TX.getLast? = some b) :
    Repartido (k.trasCC h) := by
  refine hp.devuelve (b := b) hi ?_ rfl ?_ fun j hj => ?_
  · simp [KernelShm.trasCC, hpos, hlast]
  · rw [trasCC_self, Conexion.recibeCC, if_neg hpos]
    exact (List.dropLast_append_getLast? b hlast).symm
  · rw [trasCC_of_ne hj]

end Ltm.Kernel
