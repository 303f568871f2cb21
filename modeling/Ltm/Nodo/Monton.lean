import Ltm.Nodo.Libres
import Ltm.Nodo.Traslado
import Ltm.Pool.Tail

/-! # The list nodes in the shared heap

Beside the state of a host goes its heap, where the nodes of its lists are: eight for `CXs_libres` from the
start, and one for each buffer that `buscar_buffer_libre` makes. `splice` moves nodes without a call of the
allocator, and no code takes a buffer out of all lists, so the heap only loses the nodes of `CXs_libres`.
-/

namespace Ltm.Nodo
open Kernel Runs FirstFit ByteMemory
set_option autoImplicit false
set_option maxHeartbeats 250000

abbrev ltmHeap : ℕ := 500000

/-- The bytes of a list node of `CXs_libres`, and of one of `buffers_libres` or `TX`. -/
abbrev nodoInt : UInt64 := 24
abbrev nodoBufPkt : UInt64 := 1136

/-- The heap, the nodes of `CXs_libres` in their order, and the nodes that the last step's `push_back`s
were given. -/
structure Monton where
  heap : Heap.State
  enteros : List ℕ
  nuevos : List ℕ

/-- The heap of `CreaMemoriaKERNEL` after `inicializar_CXs_libres`. -/
def montonInicial (o : ℕ) (mem : Mem) : Option Monton :=
  (Heap.build ltmHeap o mem).bind fun h =>
    (Heap.allocateAll nodoInt numMaxCXs h).map fun r => ⟨r.1, r.2, r.2⟩

/-- `CXs_libres.pop_front()`; of an empty list it frees the list's own head, in front of the heap. -/
def Monton.popFront (m : Monton) : Option Monton :=
  match m.enteros with
  | [] => none
  | p :: ps => (Heap.step m.heap (.deallocate p)).map fun h => { m with heap := h, enteros := ps }

/-- `buffers_libres.push_back`, `k` times. -/
def Monton.pushBack (m : Monton) (k : ℕ) : Option Monton :=
  (Heap.allocateAll nodoBufPkt k m.heap).map fun r => { m with heap := r.1, nuevos := r.2 }

def anotaMonton (s : Estado) (e : Suceso) (s' : Estado) (r : Option Monton) : Option Monton :=
  r.bind fun m => (if tomaConnect s.kernel e then m.popFront else some m).bind fun m' =>
    m'.pushBack (s'.kernel.nodos - s.kernel.nodos)

/-- The lists have been kept, and the allocator has given the last step a node for every `push_back`. -/
def SinNulos (r : Option Monton) : Prop := ∃ m, r = some m ∧ 0 ∉ m.nuevos

/-- The buffers for which the heap has room. -/
abbrev maxNodos : ℕ := 427

/-- With those that the event needs beyond the free ones, there are no more buffers than fit; and if it
takes a cell for a `t_connect`, there is a node to pop. -/
def Caben (s : Estado) (e : Suceso) : Prop :=
  s.kernel.nodos + (cuantosBufferes s e - s.kernel.buffersLibres.length) ≤ maxNodos ∧
    (tomaConnect s.kernel e → s.kernel.CXsLibres ≠ [])

instance (s : Estado) (e : Suceso) : Decidable (Caben s e) := inferInstanceAs (Decidable (_ ∧ (_ → _)))

/-! ## The heap -/

/-- The tiling of the heap: `ints` where the nodes of `CXs_libres` were made, then `n` buffers, then `t`
free bytes. -/
structure EnMonton (o n : ℕ) (m : Monton) (ints : List Blk) (t : ℕ) : Prop where
  inv : Heap.Inv ltmHeap o m.heap (ints ++ List.replicate n ⟨1136, false⟩ ++ [⟨t, true⟩])
  enteros : ∀ p ∈ m.enteros, ∃ x k, p = x + 32 ∧ (x, ⟨k, false⟩) ∈ place 32 o ints
  nodup : m.enteros.Nodup
  cabe : span 32 ints ≤ 448

variable {o n k t : ℕ} {m m' : Monton} {ints : List Blk}

theorem EnMonton.bytes (hm : EnMonton o n m ints t) :
    span 32 ints + n * 1168 + 32 + t = ltmHeap := by
  have hspan := hm.inv.span
  rw [span_append, span_append, span_replicate] at hspan
  simp only [span] at hspan
  omega

theorem tooSmall_ints (hcabe : span 32 ints ≤ 448) (n : ℕ) :
    Heap.TooSmall nodoBufPkt.toNat (ints ++ List.replicate n ⟨1136, false⟩) := by
  rintro b hb ⟨hfree, hsize⟩
  have hbytes : nodoBufPkt.toNat = 1136 := rfl
  rcases List.mem_append.mp hb with hb | hb
  · have := Heap.size_le_span hb
    omega
  · rw [List.eq_of_mem_replicate hb] at hfree
    exact absurd hfree (by simp)

theorem EnMonton.pushBack (hm : EnMonton o n m ints t) (hr : Heap.Region ltmHeap o)
    (hk : n + k ≤ maxNodos) : ∃ m' t', m.pushBack k = some m' ∧ EnMonton o (n + k) m' ints t' ∧
      m'.enteros = m.enteros ∧ 0 ∉ m'.nuevos := by
  have hbytes := hm.bytes
  have hcabe := hm.cabe
  have hsize : nodoBufPkt.toNat = 1136 := rfl
  obtain ⟨h', hall, hi'⟩ := Heap.allocateAll_tail (k := k) hm.inv hr (tooSmall_ints hcabe n)
    (by rw [hsize]; simp only [ltmHeap, maxNodos] at hbytes hk; omega)
  rw [List.append_assoc ints, hsize, List.replicate_append_replicate] at hi'
  generalize hps : (List.range k).map _ = ps at hall
  refine ⟨{ m with heap := h', nuevos := ps }, _, ?_, ⟨hi', hm.enteros, hm.nodup, hcabe⟩, rfl, ?_⟩
  · rw [Monton.pushBack, hall]
    rfl
  · simp [← hps]

theorem EnMonton.pushBack_nulo (hm : EnMonton o n m ints t) (hr : Heap.Region ltmHeap o)
    (hints : span 32 ints = 448) (hn : n ≤ maxNodos) (hk : maxNodos < n + k)
    (hpush : m.pushBack k = some m') : 0 ∈ m'.nuevos := by
  obtain ⟨j, rfl⟩ : ∃ j, k = maxNodos - n + (j + 1) := ⟨k - (maxNodos - n) - 1, by omega⟩
  obtain ⟨m₁, t', hpush₁, hm₁, -⟩ := hm.pushBack hr (k := maxNodos - n) (by omega)
  have hbytes := hm₁.bytes
  obtain ⟨r, hall, rfl⟩ := Option.map_eq_some_iff.mp hpush
  obtain ⟨r₁, hall₁, rfl⟩ := Option.map_eq_some_iff.mp hpush₁
  rw [Heap.allocateAll_add, hall₁, Option.bind_some] at hall
  obtain ⟨⟨h₂, ps⟩, hall₂, rfl⟩ := Option.map_eq_some_iff.mp hall
  have hcero : 0 ∈ ps := by
    refine Heap.allocateAll_null hm₁.inv hr (tooSmall_ints hm₁.cabe _) ?_ hall₂
    have hsize : nodoBufPkt.toNat = 1136 := rfl
    simp only [ltmHeap, maxNodos] at hbytes hn
    omega
  exact List.mem_append_right _ hcero

theorem popFront_nil (hl : m.enteros = []) : m.popFront = none := by
  rw [Monton.popFront, hl]

theorem popFront_cons {p : ℕ} {ps : List ℕ} {h' : Heap.State} (hl : m.enteros = p :: ps)
    (hs : Heap.step m.heap (.deallocate p) = some h') :
    m.popFront = some { m with heap := h', enteros := ps } := by
  rw [Monton.popFront, hl]
  dsimp only
  rw [hs]
  rfl

/-- The nodes still in the list are used blocks other than the freed one. -/
theorem quedan {ints' : List Blk} {x : ℕ} {ps : List ℕ} (hno : x + 32 ∉ ps)
    (hent : ∀ p ∈ ps, ∃ y c, p = y + 32 ∧ (y, ⟨c, false⟩) ∈ place 32 o ints)
    (hplace : ∀ y c, (y, ⟨c, false⟩) ∈ place 32 o ints' ↔
      (y, ⟨c, false⟩) ∈ place 32 o ints ∧ y ≠ x) :
    ∀ p ∈ ps, ∃ y c, p = y + 32 ∧ (y, ⟨c, false⟩) ∈ place 32 o ints' := by
  intro p hp
  obtain ⟨y, c, rfl, hy⟩ := hent p hp
  refine ⟨y, c, rfl, (hplace y c).mpr ⟨hy, ?_⟩⟩
  rintro rfl
  exact hno hp

theorem place_coalesce_release (o : ℕ) (pre post : List Blk) (k x c : ℕ) :
    (x, ⟨c, false⟩) ∈ place 32 o (coalesce 32 (pre ++ ⟨k, true⟩ :: post)) ↔
      (x, ⟨c, false⟩) ∈ place 32 o (pre ++ ⟨k, false⟩ :: post) ∧ x ≠ o + span 32 pre :=
  mem_place_coalesce.trans (mem_place_release (by omega))

/-- With a buffer in the heap, what the nodes of `CXs_libres` leave free stays before it. -/
theorem EnMonton.popFront (hm : EnMonton o n m ints t) (hr : Heap.Region ltmHeap o)
    (hne : m.enteros ≠ []) : ∃ m' ints' t', m.popFront = some m' ∧ EnMonton o n m' ints' t' ∧
      m'.enteros = m.enteros.tail ∧ (1 ≤ n → span 32 ints' = span 32 ints) := by
  have hbytes := hm.bytes
  obtain ⟨hi, hent, hnodup, hcabe⟩ := hm
  cases hl : m.enteros with
  | nil => exact absurd hl hne
  | cons p ps =>
      rw [hl] at hent hnodup
      obtain ⟨hno, hnodup'⟩ := List.nodup_cons.mp hnodup
      obtain ⟨x, k, rfl, hx⟩ := hent p List.mem_cons_self
      have hent' := fun q hq => hent q (List.mem_cons_of_mem _ hq)
      obtain ⟨pre, post, rfl, rfl⟩ := mem_place_split hx
      cases n with
      | zero =>
          rw [List.replicate_zero, List.append_nil, List.append_assoc, List.cons_append] at hi
          obtain ⟨h', r, t', hs, hi', ht, hplace⟩ := Heap.deallocate_before_tail hi hr
          have hspan := hi'.span
          rw [span_append, span, span] at hspan
          refine ⟨_, r, t', popFront_cons hl hs, ⟨?_, quedan hno hent' hplace, hnodup', ?_⟩, rfl,
            fun h => absurd h (by omega)⟩
          · rwa [List.replicate_zero, List.append_nil]
          · dsimp only at hspan
            omega
      | succ n =>
          have e : pre ++ ⟨k, false⟩ :: post ++ List.replicate (n + 1) ⟨1136, false⟩ ++ [⟨t, true⟩] =
              pre ++ ⟨k, false⟩ ::
                (post ++ ⟨1136, false⟩ :: (List.replicate n ⟨1136, false⟩ ++ [⟨t, true⟩])) := by
            simp [List.replicate_succ]
          rw [e] at hi
          obtain ⟨h', hs, hi'⟩ := Heap.deallocate_before_used hi hr
          have hspan : span 32 (coalesce 32 (pre ++ ⟨k, true⟩ :: post)) =
              span 32 (pre ++ ⟨k, false⟩ :: post) := by
            rw [span_coalesce, span_append, span_append, span, span]
          refine ⟨_, _, t, popFront_cons hl hs, ⟨?_, quedan hno hent' (place_coalesce_release o pre post k),
            hnodup', hspan ▸ hcabe⟩, rfl, fun _ => hspan⟩
          rwa [List.append_assoc, List.replicate_succ, List.cons_append]


/-! ## The start -/

def ochoEnteros : List Blk := List.replicate numMaxCXs ⟨24, false⟩

theorem montonInicial_eq (hr : Heap.Region ltmHeap o) (mem : Mem) :
    ∃ m, montonInicial o mem = some m ∧ EnMonton o 0 m ochoEnteros 499520 ∧
      m.enteros.length = numMaxCXs ∧ m.enteros.head? = some (o + 32) ∧ 0 ∉ m.nuevos := by
  obtain ⟨h, hbuild, hi⟩ := Heap.build_inv hr (by decide) mem
  have hi₀ : Heap.Inv ltmHeap o h ([] ++ [⟨499968, true⟩]) := hi
  obtain ⟨h', hall, hi'⟩ := Heap.allocateAll_tail (n := nodoInt) (k := numMaxCXs) hi₀ hr
    (by simp [Heap.TooSmall]) (by decide)
  generalize hps : (List.range numMaxCXs).map _ = ps at hall
  have hbytes : nodoInt.toNat = 24 := rfl
  refine ⟨⟨h', ps, ps⟩, ?_, ⟨hi', fun p hp => ?_, ?_, by decide⟩, by simp [← hps], ?_, ?_⟩
  · rw [montonInicial, hbuild, Option.bind_some, hall]
    rfl
  · rw [← hps] at hp
    obtain ⟨i, hi, rfl⟩ := List.mem_map.mp hp
    refine ⟨o + i * 56, 24, ?_, mem_place_replicate o ⟨24, false⟩ (List.mem_range.mp hi)⟩
    simp only [span, hbytes]
    omega
  · rw [← hps]
    refine List.nodup_range.map fun i j hij => ?_
    simp only [hbytes] at hij
    omega
  · rw [← hps]
    simp [List.range_succ_eq_map, span]
  · simp [← hps]

/-- The first connection frees the first node, and the second one stays after it. -/
theorem EnMonton.popFront_inicial (hm : EnMonton o 0 m ochoEnteros t) (hr : Heap.Region ltmHeap o)
    (hp : m.enteros.head? = some (o + 32)) :
    ∃ m' ints', m.popFront = some m' ∧ EnMonton o 0 m' ints' t ∧ m'.enteros = m.enteros.tail ∧
      span 32 ints' = 448 := by
  obtain ⟨hi, hent, hnodup, hcabe⟩ := hm
  obtain ⟨ps, hl⟩ := List.head?_eq_some_iff.mp hp
  rw [hl] at hent hnodup
  obtain ⟨hno, hnodup'⟩ := List.nodup_cons.mp hnodup
  have hi₀ : Heap.Inv ltmHeap o m.heap ([] ++ ⟨24, false⟩ :: ([] ++ ⟨24, false⟩ ::
    (List.replicate 6 ⟨24, false⟩ ++ [⟨t, true⟩]))) := hi
  obtain ⟨h', hs, hi'⟩ := Heap.deallocate_before_used hi₀ hr
  refine ⟨_, ⟨24, true⟩ :: List.replicate 7 ⟨24, false⟩, popFront_cons hl hs,
    ⟨hi', ?_, hnodup', by decide⟩, by rw [hl]; rfl, by decide⟩
  exact quedan hno (fun q hq => hent q (List.mem_cons_of_mem _ hq)) fun y c =>
    place_coalesce_release o [] (List.replicate 7 ⟨24, false⟩) 24 y c

/-! ## The run -/

/-- No list holds a buffer. -/
structure NingunBuffer (k : KernelShm) : Prop where
  libres : k.buffersLibres = []
  TX : ∀ i, EnTabla i → (k.CXs i).TX = []

/-- The heap `m` beside the state. Nothing is moved before the first buffer is made, and that keeps all
later ones behind the nodes of `CXs_libres`. -/
structure Monta (o : ℕ) (s : Estado) (m : Monton) (ints : List Blk) (t : ℕ) : Prop where
  heap : EnMonton o s.kernel.nodos m ints t
  enteros : m.enteros.length = s.kernel.CXsLibres.length
  caben : s.kernel.nodos ≤ maxNodos
  lugar : span 32 ints = 448
  vacio : s.kernel.nodos = 0 →
    NingunBuffer s.kernel ∧ ints = ochoEnteros ∧ m.enteros.head? = some (o + 32)

def Montado (o : ℕ) (s : Estado) (r : Option Monton) : Prop :=
  Cuadra s ∧ ∃ m ints t, r = some m ∧ Monta o s m ints t

variable {s s' : Estado} {e : Suceso} {r : Option Monton}

theorem cuantosBufferes_of_tomaConnect (h : tomaConnect s.kernel e) : cuantosBufferes s e = 1 := by
  cases e with
  | llama c =>
      cases c with
      | connect e destino origen => exact cuantosBufferes_conecta h
      | listen => exact absurd h id
      | send => exact absurd h id
  | _ => exact absurd h id

/-- As long as no buffer is made, there is none to move. -/
theorem NingunBuffer.paso (hb : NingunBuffer s.kernel) (hdef : Definido s.kernel e)
    (h : paso s e = some s') (hn : s'.kernel.nodos = s.kernel.nodos) : NingunBuffer s'.kernel := by
  have hcero : cuantosBufferes s e = 0 := by
    have := nodos_paso h
    rw [hb.libres, List.length_nil] at this
    omega
  have ht := traslado_of_paso h
  generalize s'.kernel = k' at ht hn ⊢
  cases ht with
  | @envia _ l n _ bs he henv =>
      have hbs : bs = [] := by
        rw [cuantosBufferes_envia he, ← henv.cuantos] at hcero
        exact List.eq_nil_of_length_eq_zero hcero
      obtain ⟨dormida, hcelda⟩ := henv.celda
      refine ⟨?_, fun i hen => ?_⟩
      · have hlen := henv.toma.length
        rw [hbs, hb.libres, hn, Nat.sub_self, List.length_nil, Nat.zero_add] at hlen
        exact List.eq_nil_of_length_eq_zero hlen
      · by_cases hi : i = l.id
        · rw [hi] at hen ⊢
          rw [hcelda, hbs, List.append_nil]
          exact hb.TX l.id hen
        · rw [henv.otras i hi]
          exact hb.TX i hen
  | conecta e destino origen origen' ht =>
      rw [cuantosBufferes_conecta ht] at hcero
      exact absurd hcero (by decide)
  | @confirma _ p _ ht =>
      have hTX := hb.TX _ (hdef.1.1 ht)
      refine ⟨?_, fun i hen => List.sublist_nil.mp (hb.TX i hen ▸ sublist_trasCC p.cabecera i)⟩
      simp [KernelShm.trasCC, hb.libres, hTX]
  | responde ht =>
      rw [cuantosBufferes_responde ht] at hcero
      exact absurd hcero (by decide)
  | quieto he hc hbuf =>
      exact ⟨hbuf.libres.trans hb.libres, fun i hen => (hbuf.TX i).trans (hb.TX i hen)⟩

/-- The heap after the pop of a `t_connect` that takes a cell. -/
def sacado (s : Estado) (e : Suceso) (m : Monton) : Option Monton :=
  if tomaConnect s.kernel e then m.popFront else some m

theorem anotaMonton_some (s : Estado) (e : Suceso) (s' : Estado) (m : Monton) :
    anotaMonton s e s' (some m) =
      (sacado s e m).bind fun m' => m'.pushBack (s'.kernel.nodos - s.kernel.nodos) := rfl

theorem Monta.saca (hm : Monta o s m ints t) (hr : Heap.Region ltmHeap o)
    (hpop : tomaConnect s.kernel e → s.kernel.CXsLibres ≠ []) :
    ∃ m' ints' t', sacado s e m = some m' ∧ EnMonton o s.kernel.nodos m' ints' t' ∧
      span 32 ints' = 448 ∧ m'.enteros.length = (if tomaConnect s.kernel e then s.kernel.CXsLibres.tail
        else s.kernel.CXsLibres).length ∧ (¬tomaConnect s.kernel e → m' = m ∧ ints' = ints) := by
  have hlen := hm.enteros
  unfold sacado
  by_cases ht : tomaConnect s.kernel e
  · rw [if_pos ht, if_pos ht, List.length_tail, ← hlen]
    by_cases hn : s.kernel.nodos = 0
    · obtain ⟨-, rfl, hhead⟩ := hm.vacio hn
      have hen := hm.heap
      rw [hn] at hen ⊢
      obtain ⟨m', ints', hsale, hen', htail, hspan⟩ := hen.popFront_inicial hr hhead
      exact ⟨m', ints', t, hsale, hen', hspan, by rw [htail, List.length_tail], fun hno => absurd ht hno⟩
    · have hne : m.enteros ≠ [] := by
        intro hnil
        rw [hnil] at hlen
        exact hpop ht (List.eq_nil_of_length_eq_zero hlen.symm)
      obtain ⟨m', ints', t', hsale, hen', htail, hspan⟩ := hm.heap.popFront hr hne
      exact ⟨m', ints', t', hsale, hen', (hspan (by omega)).trans hm.lugar, by rw [htail, List.length_tail],
        fun hno => absurd ht hno⟩
  · rw [if_neg ht, if_neg ht]
    exact ⟨m, ints, t, rfl, hm.heap, hm.lugar, hlen, fun _ => ⟨rfl, rfl⟩⟩

theorem montado_paso (hr : Heap.Region ltmHeap o) (hm : Montado o s r) (hdef : Definido s.kernel e)
    (hok : Caben s e) (h : paso s e = some s') : Montado o s' (anotaMonton s e s' r) ∧
      SinNulos (anotaMonton s e s' r) := by
  obtain ⟨hc, m, ints, t, rfl, hm⟩ := hm
  have ht := transita_of_paso h
  have hn := nodos_paso h
  have hk : s.kernel.nodos + (s'.kernel.nodos - s.kernel.nodos) = s'.kernel.nodos := by omega
  have hcabe : s'.kernel.nodos ≤ maxNodos := hn.le.trans hok.1
  obtain ⟨m₁, ints', t₁, hsale, hen, hspan, hlen, hmisma⟩ := hm.saca hr hok.2
  obtain ⟨m', t', hpush, hen', hent, hnulo⟩ := hen.pushBack hr (hk.le.trans hcabe)
  rw [anotaMonton_some, hsale, Option.bind_some, hpush]
  rw [hk] at hen'
  refine ⟨⟨cuadra_transita hc ht, m', ints', t', rfl, hen', ?_, hcabe, hspan, fun hcero => ?_⟩, m', rfl,
    hnulo⟩
  · rw [hent, hlen, (efectoLibres_transita hc ht).CXsLibres]
  · have hantes : s.kernel.nodos = 0 := by omega
    obtain ⟨hning, hocho, hhead⟩ := hm.vacio hantes
    have hno : ¬tomaConnect s.kernel e := by
      intro htoma
      rw [cuantosBufferes_of_tomaConnect htoma, hning.libres, List.length_nil] at hn
      omega
    obtain ⟨rfl, rfl⟩ := hmisma hno
    exact ⟨hning.paso hdef h (hcero.trans hantes.symm), hocho, by rw [hent, hhead]⟩

/-- Where the buffers do not fit, an allocation of the step returns null; and there is no node to pop from
an empty list. -/
theorem nulo_paso (hr : Heap.Region ltmHeap o) (hm : Montado o s r) (hno : ¬Caben s e)
    (h : paso s e = some s') : ¬SinNulos (anotaMonton s e s' r) := by
  obtain ⟨-, m, ints, t, rfl, hm⟩ := hm
  have hn := nodos_paso h
  rw [anotaMonton_some]
  by_cases hpop : tomaConnect s.kernel e → s.kernel.CXsLibres ≠ []
  · obtain ⟨m₁, ints', t₁, hsale, hen, hspan, -⟩ := hm.saca hr hpop
    rw [hsale, Option.bind_some]
    rintro ⟨m', hpush, hnulo⟩
    have hmas : ¬s.kernel.nodos + (cuantosBufferes s e - s.kernel.buffersLibres.length) ≤ maxNodos :=
      fun hle => hno ⟨hle, hpop⟩
    exact hnulo (hen.pushBack_nulo hr hspan hm.caben (by omega) hpush)
  · obtain ⟨ht, hvacia⟩ := Classical.not_imp.mp hpop
    have hnil : m.enteros = [] := by
      refine List.eq_nil_of_length_eq_zero (hm.enteros.trans ?_)
      rw [not_not.mp hvacia, List.length_nil]
    rw [sacado, if_pos ht, popFront_nil hnil]
    rintro ⟨m', hm', -⟩
    exact absurd hm' (by simp)

theorem montado_inicial (hr : Heap.Region ltmHeap o) (mem : Mem) (interfaz : String)
    (numBufPkts : UInt16) (fuera : Int → Conexion) (basura : ℕ → BufPkt) :
    Montado o (inicial (kernelInicial interfaz numBufPkts fuera basura)) (montonInicial o mem) ∧
      SinNulos (montonInicial o mem) := by
  obtain ⟨m, hm, hen, hocho, hhead, hnulo⟩ := montonInicial_eq hr mem
  have hning : NingunBuffer (kernelInicial interfaz numBufPkts fuera basura) := by
    refine ⟨rfl, fun i hi => ?_⟩
    simp [kernelInicial, iniciaKernel, inicializarCXsLibres, hi, Conexion.nula]
  exact ⟨⟨cuadra_inicial interfaz numBufPkts fuera basura, m, ochoEnteros, 499520, hm, hen, hocho,
    Nat.zero_le _, by decide, fun _ => ⟨hning, rfl, hhead⟩⟩, m, hm, hnulo⟩

theorem sinNulos_run {p : Estado × Option Monton} (hr : Heap.Region ltmHeap o) (hm : Montado o p.1 p.2)
    {es : List Suceso} (hdef : Along paso (fun s e _ => Definido s.kernel e) p.1 es) :
    Along (recording paso anotaMonton) (fun _ _ p' => SinNulos p'.2) p es ↔
      Along paso (fun s e _ => Caben s e) p.1 es := by
  refine (along_iff_along_of (fun p => Montado o p.1 p.2) (fun p e _ => Caben p.1 e)
    (fun p e _ => Definido p.1.kernel e) (fun p e p' hm hdef hok h => ?_)
    (fun p e p' hm hdef h => ⟨fun hp' => ?_, fun hok => ?_⟩) es hm
    ((along_recording (Q := fun (s : Estado) e _ => Definido s.kernel e)).mpr hdef)).trans
      (along_recording (Q := fun s e _ => Caben s e))
  · obtain ⟨hs, hnota⟩ := recording_eq_some h
    exact hnota ▸ (montado_paso hr hm hdef hok hs).1
  · obtain ⟨hs, hnota⟩ := recording_eq_some h
    by_contra hno
    exact nulo_paso hr hm hno hs (hnota ▸ hp')
  · obtain ⟨hs, hnota⟩ := recording_eq_some h
    exact hnota ▸ (montado_paso hr hm hdef hok hs).2

/-- The nodes of `CXs_libres` and 427 buffers fill the heap. In a run inside the table every allocation
gets a node exactly as long as no step needs more buffers and no `t_connect` pops from an empty list. -/
theorem sinNulos_iff {o : ℕ} {mem : Mem} {interfaz : String} {numBufPkts : UInt16}
    {fuera : Int → Conexion} {basura : ℕ → BufPkt} (hr : Heap.Region ltmHeap o) {es : List Suceso}
    (hdef : Along paso (fun s e _ => Definido s.kernel e)
      (inicial (kernelInicial interfaz numBufPkts fuera basura)) es) :
    SinNulos (montonInicial o mem) ∧
      (Along (recording paso anotaMonton) (fun _ _ p' => SinNulos p'.2)
          (inicial (kernelInicial interfaz numBufPkts fuera basura), montonInicial o mem) es ↔
        Along paso (fun s e _ => Caben s e)
          (inicial (kernelInicial interfaz numBufPkts fuera basura)) es) := by
  obtain ⟨hi, hnulo⟩ := montado_inicial hr mem interfaz numBufPkts fuera basura
  generalize montonInicial o mem = r at hi hnulo ⊢
  exact ⟨hnulo, sinNulos_run (p := (_, r)) hr hi hdef⟩

/-- The `h`-th call, a connect that is accepted and returns. -/
def aceptado (h : ℕ) : List Suceso :=
  [.llama (conecta (80 + Int16.ofNat h) (1000 + Int16.ofNat h)),
    .recibe 0x0a000002 (ccPara h 1) (some h), .citaDaemon h, .sigue h]

/-- A `t_send` of a hundred full packets. -/
def enviaCien (id : Int) : Suceso :=
  .llama (.send entornoVacio id (some (List.replicate 102400 0)) 102400)

def llenaCinco : List Suceso :=
  (List.range 5).flatMap aceptado ++ (List.range 5).map fun i : ℕ => enviaCien i

theorem sinNulos_iff_aceptado : SinNulos (montonInicial 0x40a10000 fun _ => 0) ∧
    (Along (recording paso anotaMonton) (fun _ _ p' => SinNulos p'.2)
        (inicial kernelPorDefecto, montonInicial 0x40a10000 fun _ => 0) (aceptado 0) ↔
      Along paso (fun s e _ => Caben s e) (inicial kernelPorDefecto) (aceptado 0)) :=
  sinNulos_iff ⟨by decide, by decide⟩ (by decide +kernel)

/-- Five of the eight connections fill their lists, and the last one gets null nodes. -/
theorem no_sinNulos :
    (run paso (inicial kernelPorDefecto) llenaCinco).map (fun s => (List.range numMaxCXs).map
        fun i : ℕ => (s.kernel.CXs i).TX.length) = some [100, 100, 100, 100, 100, 0, 0, 0] ∧
      ¬Along (recording paso anotaMonton) (fun _ _ p' => SinNulos p'.2)
        (inicial kernelPorDefecto, montonInicial 0x40a10000 fun _ => 0) llenaCinco := by
  have hr : Heap.Region ltmHeap 0x40a10000 := ⟨by decide, by decide⟩
  have hno : ¬Along paso (fun s e _ => Caben s e) (inicial kernelPorDefecto) llenaCinco := by
    decide +kernel
  have hdef : Along paso (fun s e _ => Definido s.kernel e) (inicial kernelPorDefecto) llenaCinco := by
    decide +kernel
  obtain ⟨hi, -⟩ := montado_inicial hr (fun _ => 0) "eth0" 100 (fun _ => .nula)
    fun n => ⟨n, .nulo, 0, 0, 0⟩
  refine ⟨by decide +kernel, fun ha => hno ?_⟩
  generalize montonInicial 0x40a10000 (fun _ => 0) = r at hi ha
  exact (sinNulos_run (p := (_, r)) hr hi hdef).mp ha

end Ltm.Nodo
