import Ltm.Nodo.Traslado
import Ltm.Foundations.Runs

/-! # The packet that a buffer points to

`buscar_buffer_libre` sets `pkt` in a local variable, to the `contenedor` of that variable, and
`push_back` copies the value into the new list node; no other code sets `pkt`. So every buffer points into
the stack frame of the call that made it. The frame comes with the event, since it is up to the process;
`pkt` is a record beside the state.
-/

namespace Ltm.Nodo
open Kernel Runs
set_option autoImplicit false
set_option maxHeartbeats 250000

/-- The address of a packet: the `contenedor` of a list node, the one of the local variable of a call of
`buscar_buffer_libre`, or none that the program has set. -/
inductive Direccion
  | contenedor (nodo : ℕ)
  | pila (marco : ℕ)
  | ajena
  deriving DecidableEq, Repr

def pasoMarco (s : Estado) (e : Suceso × ℕ) : Option Estado := paso s e.1

/-- The nodes made in the step are copies of the local variable at the frame of the event. -/
def anotaPkt (s : Estado) (e : Suceso × ℕ) (s' : Estado) (pkt : ℕ → Direccion) : ℕ → Direccion :=
  fun n => if s.kernel.nodos ≤ n ∧ n < s'.kernel.nodos then .pila e.2 else pkt n

/-- The packets in memory once `p` has been built in the one at the address `d`. -/
def construye (mem : Direccion → Tpdu) (d : Direccion) (p : Tpdu) : Direccion → Tpdu :=
  Function.update mem d p

/-- The nodes of `buffers_libres` and of the `TX` lists. -/
def enListas (k : KernelShm) : List ℕ := k.nodosLibres ++ k.nodosTX

structure Propias (k : KernelShm) (pkt : ℕ → Direccion) : Prop where
  propia : ∀ n ∈ enListas k, pkt n = .contenedor n
  distintas : ∀ n ∈ enListas k, ∀ m ∈ enListas k, n ≠ m → pkt n ≠ pkt m
  conserva : ∀ n ∈ enListas k, ∀ m ∈ enListas k, n ≠ m →
    ∀ mem p, construye mem (pkt n) p (pkt m) = mem (pkt m)

/-- The event leaves a buffer in a list of the kernel: one that it asks `buscar_buffer_libre` for, unless
it is for a `t_send` outside the table, or one that a positive CC finds in a list. -/
def Guarda (s : Estado) (e : Suceso) : Prop :=
  (0 < cuantosBufferes s e ∧ ∀ l n, envioDe s e = some (l, n) → EnTabla l.id) ∨
    ∃ ipRemota p para, e = .recibe ipRemota p para ∧ p.cabecera.tipo = tipoCC ∧
      ¬p.cabecera.conexionAceptada < 0 ∧ (s.kernel.CXs p.cabecera.idDestino).TX ≠ []

def SinListas (k : KernelShm) : Prop := k.buffersLibres = [] ∧ ∀ i, EnTabla i → (k.CXs i).TX = []

variable {s s' : Estado} {k k' : KernelShm} {e : Suceso} {pkt : ℕ → Direccion}

theorem enListas_eq_nil_iff : enListas k = [] ↔ SinListas k := by
  rw [enListas, List.append_eq_nil_iff, KernelShm.nodosLibres, List.map_eq_nil_iff]
  refine and_congr_right fun _ => ⟨fun h i hi => ?_, fun h => ?_⟩
  · apply List.eq_nil_iff_forall_not_mem.mpr
    intro b hb
    have hmem := mem_nodosTX_of_mem hi hb
    rw [h] at hmem
    exact absurd hmem (by simp)
  · apply List.eq_nil_iff_forall_not_mem.mpr
    intro n hn
    obtain ⟨i, hi, hn⟩ := mem_nodosTX.mp hn
    rw [Conexion.nodosTX, h i hi] at hn
    exact absurd hn (by simp)

/-- No buffer points to its own `contenedor`, so all do only where there is none. -/
theorem propias_iff_sinListas (hajenas : ∀ n, pkt n ≠ .contenedor n) : Propias k pkt ↔ SinListas k := by
  rw [← enListas_eq_nil_iff]
  constructor
  · intro h
    apply List.eq_nil_iff_forall_not_mem.mpr
    intro n hn
    exact hajenas n (h.propia n hn)
  · intro h
    constructor <;> simp [h]

theorem anotaPkt_ajenas {m : ℕ} (h : ∀ n, pkt n ≠ .contenedor n) (n : ℕ) :
    anotaPkt s (e, m) s' pkt n ≠ .contenedor n := by
  unfold anotaPkt
  split
  · simp
  · exact h n

/-! ## Where there are no buffers -/

theorem sinListas_envia {l : SendLocal} {n : ℕ} {bs : List BufPkt} (hi : SinListas k)
    (h : Envia l n k k' bs) : SinListas k' ↔ ¬(EnTabla l.id ∧ bs ≠ []) := by
  obtain ⟨d, hd⟩ := h.celda
  have hlong := h.toma.length
  have hjustos := h.toma.justos
  rw [hi.1, List.length_nil] at hlong hjustos
  have hlibres : k'.buffersLibres = [] := List.eq_nil_of_length_eq_zero (by omega)
  constructor
  · rintro ⟨-, hTX⟩ ⟨hen, hbs⟩
    have hcelda := hTX l.id hen
    rw [hd, hi.2 l.id hen] at hcelda
    exact hbs hcelda
  · intro hno
    refine ⟨hlibres, fun i hi' => ?_⟩
    by_cases e : i = l.id
    · subst e
      have hbs : bs = [] := by
        by_contra hbs
        exact hno ⟨hi', hbs⟩
      rw [hd, hbs, List.append_nil]
      exact hi.2 l.id hi'
    · rw [h.otras i e]
      exact hi.2 i hi'

theorem not_sinListas_trasConnect (pid : Int) (destino origen : TDireccion) :
    ¬SinListas (k.trasConnect pid destino origen) := by
  intro h
  have hlast := getLast?_trasConnect (k := k) pid destino origen
  rw [h.2 _ (buscarCeldaLibre_enTabla k)] at hlast
  exact absurd hlast (by simp)

theorem sinListas_trasCC (hi : SinListas k) (h : CabTcp) : SinListas (k.trasCC h) ↔
    ¬(¬h.conexionAceptada < 0 ∧ (k.CXs h.idDestino).TX ≠ []) := by
  have hTX : ∀ i, EnTabla i → ((k.trasCC h).CXs i).TX = [] := by
    intro i hi'
    have hsub := sublist_trasCC (k := k) h i
    rw [hi.2 i hi'] at hsub
    exact List.sublist_nil.mp hsub
  rw [SinListas, and_iff_left hTX]
  by_cases hneg : h.conexionAceptada < 0
  · simp [KernelShm.trasCC, hneg, hi.1]
  · simp [KernelShm.trasCC, hneg, hi.1, Option.toList_eq_nil_iff]

theorem guarda_envia {l : SendLocal} {n : ℕ} (he : envioDe s e = some (l, n)) :
    Guarda s e ↔ EnTabla l.id ∧ 0 < cuantosBufferes s e := by
  rw [Guarda, he]
  constructor
  · rintro (⟨hpos, hen⟩ | ⟨ipRemota, p, para, rfl, -⟩)
    · exact ⟨hen l n rfl, hpos⟩
    · exact absurd he (by simp [envioDe])
  · rintro ⟨hen, hpos⟩
    refine Or.inl ⟨hpos, fun l' n' he' => ?_⟩
    obtain ⟨rfl, -⟩ := Prod.mk.inj (Option.some.inj he')
    exact hen

theorem guarda_confirma {ipRemota : InAddr} {p : Tpdu} {para : Option ℕ}
    (ht : p.cabecera.tipo = tipoCC) : Guarda s (.recibe ipRemota p para) ↔
      ¬p.cabecera.conexionAceptada < 0 ∧ (s.kernel.CXs p.cabecera.idDestino).TX ≠ [] := by
  rw [Guarda, cuantosBufferes_confirma ht]
  constructor
  · rintro (⟨hpos, -⟩ | ⟨ipRemota', p', para', e, -, hpos, hne⟩)
    · exact absurd hpos (Nat.lt_irrefl 0)
    · obtain ⟨-, rfl, -⟩ := Suceso.recibe.inj e
      exact ⟨hpos, hne⟩
  · rintro ⟨hpos, hne⟩
    exact Or.inr ⟨ipRemota, p, para, rfl, ht, hpos, hne⟩

/-- Where there are no buffers, a step leaves some just if it puts one into a list. -/
theorem sinListas_iff_guarda (hi : SinListas s.kernel) (h : paso s e = some s') :
    SinListas s'.kernel ↔ ¬Guarda s e := by
  have ht := traslado_of_paso h
  generalize hk : s'.kernel = k' at ht
  cases ht with
  | envia he henv =>
      rw [sinListas_envia hi henv, guarda_envia he, cuantosBufferes_envia he, ← henv.cuantos,
        List.length_pos_iff]
  | conecta en destino origen origen' htoma =>
      refine iff_of_false (not_sinListas_trasConnect en.pid destino origen') (not_not.mpr (Or.inl ?_))
      rw [cuantosBufferes_conecta htoma]
      exact ⟨Nat.one_pos, fun l n he => absurd he (by simp [envioDe])⟩
  | responde htipo =>
      refine iff_of_false (fun hno => absurd hno.1 (by simp [KernelShm.trasCR])) (not_not.mpr (Or.inl ?_))
      rw [cuantosBufferes_responde htipo]
      exact ⟨Nat.one_pos, fun l n he => absurd he (by simp [envioDe])⟩
  | confirma htipo => rw [guarda_confirma htipo, sinListas_trasCC hi]
  | quieto he hc hbuf =>
      have hsin : SinListas k' :=
        ⟨hbuf.libres.trans hi.1, fun i hi' => (hbuf.TX i).trans (hi.2 i hi')⟩
      refine iff_of_true hsin ?_
      rintro (⟨hpos, -⟩ | ⟨ipRemota, p, para, rfl, htipo, hpos, hne⟩)
      · omega
      · rw [← hk, kernel_recibeCC h htipo, sinListas_trasCC hi] at hsin
        exact hsin ⟨hpos, hne⟩

theorem sinListas_inicial (interfaz : String) (numBufPkts : UInt16) (fuera : Int → Conexion)
    (basura : ℕ → BufPkt) : SinListas (kernelInicial interfaz numBufPkts fuera basura) :=
  ⟨rfl, fun i hi => by simp [kernelInicial, iniciaKernel, inicializarCXsLibres, hi]⟩

/-- Every buffer points to its own packet at the start, where there is none, and in every run exactly as
long as no step puts a buffer into a list. -/
theorem propias_iff {interfaz : String} {numBufPkts : UInt16} {fuera : Int → Conexion}
    {basura : ℕ → BufPkt} (es : List (Suceso × ℕ)) :
    Propias (kernelInicial interfaz numBufPkts fuera basura) (fun _ => .ajena) ∧
      (Along (recording pasoMarco anotaPkt) (fun _ _ p' => Propias p'.1.kernel p'.2)
          (inicial (kernelInicial interfaz numBufPkts fuera basura), fun _ => .ajena) es ↔
        Along (recording pasoMarco anotaPkt) (fun p e _ => ¬Guarda p.1 e.1)
          (inicial (kernelInicial interfaz numBufPkts fuera basura), fun _ => .ajena) es) := by
  have hi := sinListas_inicial interfaz numBufPkts fuera basura
  refine ⟨(propias_iff_sinListas (by simp)).mpr hi,
    along_iff_along (fun p : Estado × (ℕ → Direccion) => SinListas p.1.kernel ∧
      ∀ n, p.2 n ≠ .contenedor n) (fun p e _ => ¬Guarda p.1 e.1) ?_ ?_ es ⟨hi, by simp⟩⟩
  · rintro p ⟨e, marco⟩ p' ⟨hi, hajenas⟩ hok h
    obtain ⟨hp, hr⟩ := recording_eq_some h
    refine ⟨(sinListas_iff_guarda hi hp).mpr hok, ?_⟩
    rw [hr]
    exact anotaPkt_ajenas hajenas
  · rintro p ⟨e, marco⟩ p' ⟨hi, hajenas⟩ h
    obtain ⟨hp, hr⟩ := recording_eq_some h
    rw [hr, propias_iff_sinListas (anotaPkt_ajenas hajenas)]
    exact sinListas_iff_guarda hi hp

/-- Two connects, the calls of `buscar_buffer_libre` at one frame. -/
def dosConnects : List (Suceso × ℕ) :=
  [(.llama (conecta 80 1000), 7), (.llama (conecta 81 1001), 7)]

/-- After the first the buffer points into the frame, after the second both do. -/
theorem no_propias :
    ¬Along (recording pasoMarco anotaPkt) (fun _ _ p' => Propias p'.1.kernel p'.2)
        (inicial kernelPorDefecto, fun _ => .ajena) dosConnects ∧
      (run (recording pasoMarco anotaPkt) (inicial kernelPorDefecto, fun _ => .ajena) dosConnects).map
        (fun p => (p.1.kernel.nodosTX, p.2 0, p.2 1)) = some ([0, 1], .pila 7, .pila 7) := by
  have hrun : ((recording pasoMarco anotaPkt (inicial kernelPorDefecto, fun _ => .ajena)
      (.llama (conecta 80 1000), 7)).map fun p => (decide (0 ∈ enListas p.1.kernel), p.2 0)) =
        some (true, .pila 7) := by decide +kernel
  obtain ⟨p, hp, hval⟩ := Option.map_eq_some_iff.mp hrun
  obtain ⟨hmem, hpkt⟩ := Prod.mk.inj hval
  refine ⟨fun h => ?_, by decide +kernel⟩
  have hpropia := ((Along.cons_of_some hp).mp h).1.propia 0 (of_decide_eq_true hmem)
  rw [hpkt] at hpropia
  exact absurd hpropia (by simp)

end Ltm.Nodo
