import Ltm.Kernel.Interfaz
import Ltm.Pool.Alignment
import Ltm.Pool.Guards

/-! # The segment of shared memory: `ltmipcs.cc` and `ltmallocator.h`

`CreaMemoriaKERNEL` lays the segment out: the control block `shm_cntrl`, the kernel structure, and the
heap, whose start it rounds to a multiple of four bytes from there. The lists of the kernel structure
take their nodes from the heap through `shm_Allocator`. The nodes hold pointers of eight bytes; whether
those are aligned, in every history, is decided by the size of the kernel structure alone
(`segmentoAlineado_iff`).
-/

namespace Ltm.Kernel
open ByteMemory Heap Runs
set_option autoImplicit false
set_option maxHeartbeats 250000

/-- `LTM_HEAP`. -/
abbrev ltmHeap : ℕ := 500000

/-- The conversion of a number to `size_t`, or to an address. -/
def aSizeT (n : Int) : ℕ := (n % 18446744073709551616).toNat

/-! ## `CreaMemoriaKERNEL` -/

/-- `shm_cntrl`, without its semaphore. -/
structure ShmCntrl where
  offset : Int
  daemonPid : Int
  heapPool : Pool

/-- What the system answers to `CreaMemoriaKERNEL`; of `shmat`, `none` is `(void *) -1`. -/
structure LlamadasIpc where
  shmget : Int
  shmat : Option ℕ
  getpid : Int

/-- `CreaMemoriaKERNEL` returns `-1` after one of the first two; the third is the `exit` of the pool. -/
inductive FalloKernel
  | shmget
  | shmat
  | exit
  deriving DecidableEq, Repr

/-- What `CreaMemoriaKERNEL` leaves: the bytes asked of `shmget`, `shm_base_addr`, `*p1`, the control
block and the memory behind it, with what the pool's constructor wrote there. -/
structure Segmento where
  tam : ℕ
  base : ℕ
  p1 : ℕ
  shmc : ShmCntrl
  maquina : Machine

def tam1 (tamanho : Int) : Int := aInt (tamanho.tdiv 4 * 4 + 4)

/-- `CreaMemoriaKERNEL`; `inicio` is `INICIO`, that is `sizeof(shm_cntrl)`. -/
def creaMemoriaKERNEL (inicio : ℕ) (so : LlamadasIpc) (tamanho : Int) (m : Mem) :
    Except FalloKernel Segmento :=
  let tam1 := tam1 tamanho
  if so.shmget < 0 then .error .shmget
  else
    match so.shmat with
    | none => .error .shmat
    | some base =>
      let p1 := base + inicio
      let ceros := put m p1 (List.replicate (aSizeT (aInt (tam1 + ltmHeap))) 0)
      match pool ltmHeap (aSizeT (p1 + tam1)) ⟨ceros, [], false⟩ with
      | some (some heapPool, maquina) =>
        .ok ⟨aSizeT (inicio + tam1 + ltmHeap), base, p1, ⟨tam1, so.getpid, heapPool⟩, maquina⟩
      | _ => .error .exit

/-- The heap of a new segment. -/
def Segmento.heap (s : Segmento) : State :=
  ⟨s.shmc.heapPool, s.maquina.mem, s.maquina.written, s.maquina.wrapped, []⟩

/-! ## `shm_Allocator` -/

/-- `max_size()`, where `sizeofTp` is `sizeof (_Tp)`. -/
def maxSize (sizeofTp : UInt64) : UInt64 := (0 - 1) / sizeofTp

/-- What the lists do with the heap: they allocate `n` objects of `sizeofTp` bytes, deallocate, and write
into their nodes. -/
inductive ShmOp
  | allocate (sizeofTp n : UInt64)
  | deallocate (p : ℕ)
  | store (p k : ℕ) (v : UInt8)

/-- What the pool is asked for; `none` if `allocate` throws `bad_alloc` first. -/
def ShmOp.op : ShmOp → Option Op
  | .allocate sizeofTp n => if n > maxSize sizeofTp then none else some (.allocate (n * sizeofTp))
  | .deallocate p => some (.deallocate p)
  | .store p k v => some (.store p k v)

def shmStep (h : State) (e : ShmOp) : Option State :=
  match e.op with
  | none => some { h with written := [] }
  | some op => step h op

/-- The pointer that `shm_Allocator::allocate` returns. -/
def shmReturned (h : State) (sizeofTp n : UInt64) : Option ℕ :=
  if n > maxSize sizeofTp then none else returned h (n * sizeofTp)

/-- The bytes asked for are a multiple of `d`. -/
def ShmOp.Multiplo (d : ℕ) : ShmOp → Prop
  | .allocate sizeofTp n => d ∣ n.toNat * sizeofTp.toNat
  | _ => True

variable {h h' : State} {e : ShmOp} {sizeofTp n : UInt64} {size o d : ℕ}

theorem toNat_mul_of_le (hn : ¬n > maxSize sizeofTp) :
    (n * sizeofTp).toNat = n.toNat * sizeofTp.toNat := by
  have hle : n.toNat ≤ (2 ^ 64 - 1) / sizeofTp.toNat := by
    have := UInt64.le_iff_toNat_le.mp (UInt64.not_lt.mp hn)
    simpa [maxSize] using this
  have hmul : n.toNat * sizeofTp.toNat ≤ 2 ^ 64 - 1 :=
    (Nat.mul_le_mul_right _ hle).trans (Nat.div_mul_le_self _ _)
  rw [UInt64.toNat_mul, Nat.mod_eq_of_lt (by omega)]

theorem ShmOp.Multiplo.op {op : Op} (he : e.Multiplo d) (hop : e.op = some op) : op.Multiple d := by
  cases e with
  | allocate sizeofTp n =>
      rw [ShmOp.op] at hop
      by_cases hn : n > maxSize sizeofTp
      · rw [if_pos hn] at hop
        exact absurd hop (by simp)
      · rw [if_neg hn] at hop
        obtain rfl := Option.some.inj hop
        rw [Op.Multiple, toNat_mul_of_le hn]
        exact he
  | deallocate p =>
      obtain rfl := Option.some.inj hop
      trivial
  | store p k v =>
      obtain rfl := Option.some.inj hop
      trivial

theorem gridInv_shmStep (hr : Region size o) (hd : d ∣ 8) (hi : GridInv size o d h)
    (he : e.Multiplo d) (hs : shmStep h e = some h') : GridInv size o d h' := by
  unfold shmStep at hs
  cases hop : e.op with
  | none =>
      rw [hop] at hs
      obtain rfl := Option.some.inj hs
      obtain ⟨⟨l, hi, hg⟩, -⟩ := hi
      exact ⟨⟨l, { hi with }, hg⟩, by simp⟩
  | some op =>
      rw [hop] at hs
      exact gridInv_step hr hd hi (he.op hop) hs

theorem gridInv_shmRun (hr : Region size o) (hd : d ∣ 8) (hi : GridInv size o d h) {es : List ShmOp}
    (hes : ∀ e ∈ es, e.Multiplo d) (hrun : run shmStep h es = some h') : GridInv size o d h' :=
  run_invariant (GridInv size o d) (fun _ e _ => e.Multiplo d)
    (fun _ _ _ hi he hs => gridInv_shmStep hr hd hi he hs) hi
    (Along.of_mem (fun e he _ _ _ => hes e he) h) hrun

/-! ## The layout -/

/-- The segment is attached for a kernel structure of `tamanho` bytes: no sum of `int`s overflows, the
sizes and the address are as the compiler and `shmat` give them, and the segment lies in the address
space. -/
structure Adjuntado (inicio base : ℕ) (tamanho : Int) : Prop where
  positivo : 0 < tamanho
  entero : tamanho.tdiv 4 * 4 + 4 + ltmHeap < 2147483648
  cntrl : 8 ∣ inicio
  pagina : 4096 ∣ base
  dentro : base + (inicio + (tamanho.tdiv 4 * 4 + 4) + ltmHeap) < 18446744073709551616

/-- Where the heap starts. -/
def origen (inicio base : ℕ) (tamanho : Int) : ℕ := base + inicio + (tamanho.toNat / 4 * 4 + 4)

variable {inicio base : ℕ} {tamanho : Int} {so : LlamadasIpc}

theorem Adjuntado.redondeo (ha : Adjuntado inicio base tamanho) :
    tamanho.tdiv 4 * 4 + 4 = (tamanho.toNat / 4 * 4 + 4 : ℕ) := by
  have hpos := ha.positivo
  rw [Int.tdiv_eq_ediv_of_nonneg hpos.le]
  omega

theorem Adjuntado.region (ha : Adjuntado inicio base tamanho) :
    Region ltmHeap (origen inicio base tamanho) := by
  have hdentro := ha.dentro
  rw [ha.redondeo] at hdentro
  unfold origen
  simp only [ltmHeap] at hdentro ⊢
  exact ⟨by omega, by omega⟩

theorem tam1_eq (ha : Adjuntado inicio base tamanho) :
    tam1 tamanho = (tamanho.toNat / 4 * 4 + 4 : ℕ) := by
  have hint := ha.entero
  rw [ha.redondeo] at hint
  simp only [ltmHeap] at hint
  rw [tam1, aInt, ha.redondeo, Int.bmod_eq_of_le (by omega) (by omega)]

theorem aSizeT_natCast {n : ℕ} (hn : n < 2 ^ 64) : aSizeT n = n := by
  unfold aSizeT
  omega

/-- The segment is laid out as asked for, and its heap is a new pool, of one header, as `build` makes it. -/
structure Nuevo (inicio base : ℕ) (tamanho : Int) (s : Segmento) : Prop where
  direccion : s.base = base
  p1 : s.p1 = base + inicio
  tam : s.tam = inicio + (tamanho.toNat / 4 * 4 + 4) + ltmHeap
  inv : Inv ltmHeap (origen inicio base tamanho) s.heap [⟨ltmHeap - sizeofBlock, true⟩]
  campos : InFields (origen inicio base tamanho) [⟨ltmHeap - sizeofBlock, true⟩] s.heap.written
  cabecera : (origen inicio base tamanho, 8) ∈ s.heap.written
  nuevo : ∃ m, build ltmHeap (origen inicio base tamanho) m = some { s.heap with written := [] }

theorem creaMemoriaKERNEL_nuevo (ha : Adjuntado inicio base tamanho) (hget : 0 ≤ so.shmget)
    (hat : so.shmat = some base) (m : Mem) :
    ∃ s, creaMemoriaKERNEL inicio so tamanho m = .ok s ∧ Nuevo inicio base tamanho s := by
  have hdentro := ha.dentro
  rw [ha.redondeo] at hdentro
  simp only [ltmHeap] at hdentro
  have horigen : aSizeT ((base + inicio : ℕ) + tam1 tamanho) = origen inicio base tamanho := by
    rw [tam1_eq ha, ← Nat.cast_add, aSizeT_natCast (by omega), origen]
  have htam : aSizeT (inicio + tam1 tamanho + ltmHeap) =
      inicio + (tamanho.toNat / 4 * 4 + 4) + ltmHeap := by
    rw [tam1_eq ha, ← Nat.cast_add, ← Nat.cast_add, aSizeT_natCast (by simp only [ltmHeap]; omega)]
  have hget' : ¬so.shmget < 0 := by omega
  have hmem (b : FirstFit.Blk) : (origen inicio base tamanho, b) ∈
      FirstFit.place 32 (origen inicio base tamanho) [b] := List.mem_singleton_self _
  unfold creaMemoriaKERNEL
  simp only [hget', if_false, hat, horigen, htam, pool_run ha.region (by decide)]
  refine ⟨_, rfl, rfl, rfl, rfl, ?_, ?_, List.mem_cons_self,
    _, build_eq (pool_run ha.region (by decide) _)⟩
  · exact { new_inv (by decide) (header_build ha.region _) with }
  · exact inFields_cons (k := 0) (hmem _) (by decide) (inFields_cons (hmem _) (by decide)
      (inFields_cons (hmem _) (by decide) (inFields_cons (hmem _) (by decide) (inFields_nil _ _))))

theorem Nuevo.gridInv {s : Segmento} (hs : Nuevo inicio base tamanho s) (hd : d ∣ 8) :
    GridInv ltmHeap (origen inicio base tamanho) d s.heap := by
  have hg := FirstFit.onGrid_singleton d 32 (origen inicio base tamanho) ⟨ltmHeap - sizeofBlock, true⟩
  exact ⟨⟨_, hs.inv, hg⟩, hs.campos.modEq hd hg⟩

/-! ## Alignment -/

/-- All that the pool has put into the heap, and all pointers that it returns, are aligned to eight
bytes. -/
structure Alineado (h : State) : Prop where
  cabeceras : ∀ b ∈ h.chain, 8 ∣ b
  escritas : ∀ r ∈ h.written, 8 ∣ r.1
  punteros : ∀ sizeofTp n p, 8 ∣ n.toNat * sizeofTp.toNat →
    shmReturned h sizeofTp n = some p → 8 ∣ p

/-- The heap of the segment lies apart from the kernel structure and the control block and inside the
segment, and is aligned after every history of allocations of multiples of eight bytes. -/
structure SegmentoAlineado (inicio : ℕ) (tamanho : Int) (s : Segmento) : Prop where
  estructura : Apart s.heap.pool.blocks s.heap.pool.size s.p1 tamanho.toNat
  control : Apart s.heap.pool.blocks s.heap.pool.size s.base inicio
  cabe : s.base ≤ s.heap.pool.blocks ∧ s.heap.pool.blocks + s.heap.pool.size ≤ s.base + s.tam
  historias : ∀ es h, (∀ e ∈ es, e.Multiplo 8) → run shmStep s.heap es = some h → Alineado h

theorem shmReturned_modEq (hg : h.OnGrid d) {p : ℕ} (hp : shmReturned h sizeofTp n = some p)
    (h0 : p ≠ 0) : p ≡ h.pool.blocks [MOD d] := by
  unfold shmReturned at hp
  split at hp
  · exact absurd hp (by simp)
  · exact hg.returned _ p hp h0

theorem alineado_of_onGrid (hg : h.OnGrid 8) (h8 : 8 ∣ h.pool.blocks) : Alineado h := by
  have hmod {x : ℕ} (hx : x ≡ h.pool.blocks [MOD 8]) : 8 ∣ x := (hx.dvd_iff dvd_rfl).mpr h8
  refine ⟨fun b hb => hmod (hg.headers b hb), fun r hr => hmod (hg.written r hr), ?_⟩
  intro sizeofTp n p _ hp
  by_cases h0 : p = 0
  · rw [h0]
    exact dvd_zero 8
  · exact hmod (shmReturned_modEq hg hp h0)

section Historias
variable {s : Segmento}

/-- Every history keeps what is in the heap where the heap's start is, modulo `d`. -/
theorem Nuevo.onGrid (hn : Nuevo inicio base tamanho s) (ha : Adjuntado inicio base tamanho)
    (hd : d ∣ 8) {es : List ShmOp} (hes : ∀ e ∈ es, e.Multiplo d)
    (hrun : run shmStep s.heap es = some h) :
    h.OnGrid d ∧ h.pool.blocks = origen inicio base tamanho := by
  have hi := gridInv_shmRun ha.region hd (hn.gridInv hd) hes hrun
  have hg := hi.onGrid ha.region hd
  obtain ⟨⟨l, hil, -⟩, -⟩ := hi
  exact ⟨hg, by rw [hil.pool]⟩

/-- Every history keeps the chain well formed. -/
theorem Nuevo.wellFormed (hn : Nuevo inicio base tamanho s) (ha : Adjuntado inicio base tamanho)
    {es : List ShmOp} (hrun : run shmStep s.heap es = some h) : WellFormed h ∧ h.wrapped = false := by
  have hes : ∀ e ∈ es, e.Multiplo 1 := by
    intro e _
    cases e with
    | allocate sizeofTp n => exact one_dvd _
    | deallocate p => trivial
    | store p k v => trivial
  obtain ⟨⟨l, hi, -⟩, -⟩ := gridInv_shmRun ha.region (one_dvd 8) (hn.gridInv (one_dvd 8)) hes hrun
  exact ⟨hi.wellFormed ha.region, hi.wrapped⟩

theorem origen_mod (ha : Adjuntado inicio base tamanho) :
    origen inicio base tamanho % 8 = if 4 ≤ tamanho % 8 then 0 else 4 := by
  obtain ⟨hpos, -, hcntrl, hpagina, -⟩ := ha
  unfold origen
  split <;> omega

/-- The layout is right for every size; an aligned start is enough for the rest. -/
theorem Nuevo.alineado (hn : Nuevo inicio base tamanho s) (ha : Adjuntado inicio base tamanho)
    (h4 : 4 ≤ tamanho % 8) : SegmentoAlineado inicio tamanho s := by
  have hpos := ha.positivo
  have hpool := hn.inv.pool
  have hmod := origen_mod ha
  rw [if_pos h4] at hmod
  refine ⟨?_, ?_, ?_, fun es h hes hrun => ?_⟩
  · rw [hpool, hn.p1]
    simp only [Apart, origen]
    omega
  · rw [hpool, hn.direccion]
    simp only [Apart, origen]
    omega
  · rw [hpool, hn.direccion, hn.tam]
    simp only [origen]
    omega
  · obtain ⟨hg, horigen⟩ := hn.onGrid ha dvd_rfl hes hrun
    exact alineado_of_onGrid hg (by rw [horigen]; exact Nat.dvd_of_mod_eq_zero hmod)

/-- After any other size every header and every pointer is four bytes off, in every history. -/
theorem Nuevo.desalineado (hn : Nuevo inicio base tamanho s) (ha : Adjuntado inicio base tamanho)
    (h4 : ¬4 ≤ tamanho % 8) {es : List ShmOp} (hes : ∀ e ∈ es, e.Multiplo 8)
    (hrun : run shmStep s.heap es = some h) : (∀ b ∈ h.chain, b % 8 = 4) ∧
      ∀ sizeofTp n p, shmReturned h sizeofTp n = some p → p ≠ 0 → p % 8 = 4 := by
  obtain ⟨hg, horigen⟩ := hn.onGrid ha dvd_rfl hes hrun
  have hmod := origen_mod ha
  rw [if_neg h4, ← horigen] at hmod
  exact ⟨fun b hb => Eq.trans (hg.headers b hb) hmod,
    fun sizeofTp n p hp h0 => Eq.trans (shmReturned_modEq hg hp h0) hmod⟩

end Historias

/-- A segment is laid out apart, and its heap stays aligned in every history, exactly if the size of the
kernel structure leaves a remainder of four or more by eight. -/
theorem segmentoAlineado_iff (ha : Adjuntado inicio base tamanho) (hget : 0 ≤ so.shmget)
    (hat : so.shmat = some base) (m : Mem) :
    ∃ s, creaMemoriaKERNEL inicio so tamanho m = .ok s ∧
      (SegmentoAlineado inicio tamanho s ↔ 4 ≤ tamanho % 8) := by
  obtain ⟨s, hs, hn⟩ := creaMemoriaKERNEL_nuevo ha hget hat m
  refine ⟨s, hs, ?_⟩
  refine ⟨fun hal => ?_, fun h4 => hn.alineado ha h4⟩
  have h8 : 8 ∣ origen inicio base tamanho :=
    (hal.historias [] s.heap (by simp) rfl).escritas _ hn.cabecera
  have hmod := origen_mod ha
  by_contra h4
  rw [if_neg h4] at hmod
  omega

/-- The segment at `SHM_BASE_ADDR`, with a control block of 72 bytes. -/
def enBase : LlamadasIpc := ⟨1, some 0x40a00000, 1⟩

theorem segmentoAlineado_1100 : ∃ s, creaMemoriaKERNEL 72 enBase 1100 (fun _ => 0) = .ok s ∧
    SegmentoAlineado 72 1100 s := by
  have ha : Adjuntado 72 0x40a00000 1100 :=
    ⟨by decide, by decide, by decide, by decide, by decide⟩
  have hget : 0 ≤ enBase.shmget := by decide
  obtain ⟨s, hs, hiff⟩ := segmentoAlineado_iff ha hget rfl (fun _ => 0)
  exact ⟨s, hs, hiff.mpr (by decide)⟩

/-- A kernel structure of 1096 bytes: the first node of three words is not aligned. -/
theorem no_segmentoAlineado : ∃ s, creaMemoriaKERNEL 72 enBase 1096 (fun _ => 0) = .ok s ∧
    shmReturned s.heap 24 1 = some 0x40a004b4 ∧ ¬SegmentoAlineado 72 1096 s := by
  have ha : Adjuntado 72 0x40a00000 1096 :=
    ⟨by decide, by decide, by decide, by decide, by decide⟩
  have hget : 0 ≤ enBase.shmget := by decide
  obtain ⟨s, hs, hn⟩ := creaMemoriaKERNEL_nuevo ha hget rfl (fun _ => 0)
  have hret : shmReturned s.heap 24 1 = some 0x40a004b4 := by
    have hnew := returned_new (n := 1 * 24) hn.inv ha.region
    unfold shmReturned
    rw [if_neg (by decide), hnew]
    rfl
  refine ⟨s, hs, hret, fun hal => ?_⟩
  have h8 := (hal.historias [] s.heap (by simp) rfl).punteros 24 1 _ (by decide) hret
  exact absurd h8 (by decide)

end Ltm.Kernel
