import Ltm.Foundations.Runs
import Ltm.Foundations.CommandLine
import Ltm.Comunicacion.Descriptor
import Mathlib.Logic.Function.Basic

/-! # Starting and stopping `ltmd`

Any number of `ltmd` are started for one `dir_proto`. Each creates the file, looks for a segment with
the key of that file, makes its own, opens the network and serves; `libera_recursos` removes the
file first and the segment later. The file is the lock that keeps a second `ltmd` out, and a process
that ends without `libera_recursos` leaves it locked. A step is a system call of one process.
-/

namespace Ltm.Arranque
open Runs Comunicacion
set_option autoImplicit false
set_option maxHeartbeats 250000

/-! ## Processes -/

inductive Etapa
  | inicio
  /-- `open` has returned in `chequeo_inicial` -/
  | abierto
  /-- `chequeo_inicial` has returned -/
  | chequeado
  /-- `CreaMemoriaKERNEL` has its segment -/
  | creado
  /-- in `inicia_ired` -/
  | enlazado
  /-- waiting in `get_fd` for a message that nobody sends -/
  | colgado
  | sirve
  /-- in `libera_recursos` -/
  | libera
  /-- in `LiberaMemoriaKERNEL` -/
  | retira
  | fin
  deriving DecidableEq, Repr

structure Ltmd where
  etapa : Etapa
  shmId1 : Int
  /-- record: the inode of the file that the process has created -/
  inodo : Option ℕ
  deriving DecidableEq

structure Estado where
  /-- the inode of the file `dir_proto` -/
  fichero : Option ℕ
  /-- the segments of shared memory, key and identifier -/
  segmentos : List (Int × Int)
  ltmd : ℕ → Ltmd

/-- The device of the file, and what each process would put in its `interfaz_red_interno_t`. -/
structure Sitio where
  dev : ℕ
  ir : ℕ → RedInterna

/-- `ftok(path, 17)` where the path leads to this inode. -/
def Sitio.ftok (e : Sitio) (inodo : ℕ) : Int :=
  (inodo % 65536 + e.dev % 256 * 65536 + 17 * 16777216 : ℕ)

/-- `ftok(dir_proto, 17)` -/
def Sitio.clave (e : Sitio) (s : Estado) : Int :=
  match s.fichero with
  | none => -1
  | some i => e.ftok i

def Estado.pon (s : Estado) (p : ℕ) (l : Ltmd) : Estado :=
  { s with ltmd := Function.update s.ltmd p l }

def Estado.llega (s : Estado) (p : ℕ) (t : Etapa) : Estado := s.pon p { s.ltmd p with etapa := t }

/-! ## System calls -/

inductive Llamada
  /-- `open(mem_addr, O_CREAT | O_EXCL, …)`; a new file would have the inode given, and `none` is an
  error other than `EEXIST` -/
  | abre (inodo : Option ℕ)
  /-- `shmget` of `chequeo_inicial` -/
  | busca
  /-- `shmget` of `CreaMemoriaKERNEL`, and the identifier it gives unless it fails -/
  | crea (id : Option Int)
  | shmat (bien : Bool)
  | red (so : LlamadasRed)
  | sigint
  | unlink
  | shmctl
  /-- a signal that ends the process where it is -/
  | muere

/-- The process `p` of `s` after `inicia_interfaz_red`. In `libera_recursos` can be the process
itself, or its child that has come back from a failed `execl`; the process then waits for ever. -/
def trasRed (so : LlamadasRed) (ir : RedInterna) : Option Etapa :=
  match (iniciaInterfazRed so ir).1 with
  | .retorna r => some (if r < 0 then .libera else .sirve)
  | .espera => some (if (getFdHijo so.fd).isSome then .libera else .colgado)
  | _ => none

/-- There is a segment with the key of the file. -/
def Sitio.Ocupada (e : Sitio) (s : Estado) : Prop := e.clave s ∈ s.segmentos.map Prod.fst

instance (e : Sitio) (s : Estado) : Decidable (e.Ocupada s) := inferInstanceAs (Decidable (_ ∈ _))

def paso (e : Sitio) (s : Estado) (x : ℕ × Llamada) : Option Estado :=
  let p := x.1
  let l := s.ltmd p
  match x.2 with
  | .abre none => if l.etapa = .inicio then some (s.llega p .abierto) else none
  | .abre (some i) =>
    if l.etapa = .inicio then
      if s.fichero ≠ none then some (s.llega p .fin)
      else some { s.pon p { l with etapa := .abierto, inodo := some i } with fichero := some i }
    else none
  | .busca =>
    if l.etapa = .abierto then some (s.llega p (if e.Ocupada s then .fin else .chequeado)) else none
  | .crea none => if l.etapa = .chequeado then some (s.llega p .fin) else none
  | .crea (some id) =>
    if l.etapa = .chequeado then
      if e.Ocupada s then some (s.llega p .fin)
      else if 0 ≤ id ∧ id ∉ s.segmentos.map Prod.snd then
        some { s.pon p { l with etapa := .creado, shmId1 := id } with
          segmentos := (e.clave s, id) :: s.segmentos }
      else none
    else none
  | .shmat bien => if l.etapa = .creado then some (s.llega p (if bien then .enlazado else .fin)) else none
  | .red so => if l.etapa = .enlazado then (trasRed so (e.ir p)).map fun t => s.llega p t else none
  | .sigint => if l.etapa = .sirve then some (s.llega p .libera) else none
  | .unlink => if l.etapa = .libera then some { s.llega p .retira with fichero := none } else none
  | .shmctl =>
    if l.etapa = .retira then
      some { s.llega p .fin with
        segmentos := if 0 < l.shmId1 then s.segmentos.filter fun x => x.2 ≠ l.shmId1 else s.segmentos }
    else none
  | .muere => if l.etapa = .inicio ∨ l.etapa = .fin then none else some (s.llega p .fin)

def inicial : Estado := ⟨none, [], fun _ => ⟨.inicio, -1, none⟩⟩

/-- What `shmget(ftok(dir_proto, 17), …)` finds, in `ltm_get_kernel` too. -/
def Sitio.encuentra (e : Sitio) (s : Estado) : Option Int := s.segmentos.lookup (e.clave s)

/-! ## Everything that a step can do -/

/-- The process has created the file, and it is to remove it. -/
def Etapa.dueno : Etapa → Bool
  | .abierto | .chequeado | .creado | .enlazado | .colgado | .sirve | .libera => true
  | .inicio | .retira | .fin => false

def Etapa.conSegmento : Etapa → Bool
  | .creado | .enlazado | .colgado | .sirve | .libera | .retira => true
  | .inicio | .abierto | .chequeado | .fin => false

/-- Why a process ends without removing its file. -/
inductive Causa (e : Sitio) (s : Estado) (p : ℕ) : Llamada → Prop
  | busca (hp : (s.ltmd p).etapa = .abierto) (ho : e.Ocupada s) : Causa e s p .busca
  | crea {id : Int} (hp : (s.ltmd p).etapa = .chequeado) (ho : e.Ocupada s) : Causa e s p (.crea (some id))
  | shmget : Causa e s p (.crea none)
  | shmat : Causa e s p (.shmat false)
  | muere : Causa e s p .muere

inductive Transita (e : Sitio) (s : Estado) (p : ℕ) : Llamada → Estado → Prop
  | sinFichero (hp : (s.ltmd p).etapa = .inicio) : Transita e s p (.abre none) (s.llega p .abierto)
  | rechaza {i : ℕ} (hp : (s.ltmd p).etapa = .inicio) (hf : s.fichero ≠ none) :
      Transita e s p (.abre (some i)) (s.llega p .fin)
  | toma {i : ℕ} (hp : (s.ltmd p).etapa = .inicio) (hf : s.fichero = none) :
      Transita e s p (.abre (some i))
        { s.pon p { s.ltmd p with etapa := .abierto, inodo := some i } with fichero := some i }
  | avanza {a : Llamada} {t : Etapa} (hp : (s.ltmd p).etapa.dueno = true) (ht : t.dueno = true)
      (hseg : t.conSegmento = (s.ltmd p).etapa.conSegmento) (ha : ∀ i, a ≠ .abre i)
      (hb : a = .busca ∨ t = .chequeado → ¬e.Ocupada s) : Transita e s p a (s.llega p t)
  | crea {id : Int} (hp : (s.ltmd p).etapa = .chequeado) (hk : ¬e.Ocupada s) (hid : 0 ≤ id)
      (hn : id ∉ s.segmentos.map Prod.snd) :
      Transita e s p (.crea (some id)) { s.pon p { s.ltmd p with etapa := .creado, shmId1 := id } with
        segmentos := (e.clave s, id) :: s.segmentos }
  | abandona {a : Llamada} (hp : (s.ltmd p).etapa.dueno = true) (hc : Causa e s p a) :
      Transita e s p a (s.llega p .fin)
  | unlink (hp : (s.ltmd p).etapa = .libera) :
      Transita e s p .unlink { s.llega p .retira with fichero := none }
  | shmctl (hp : (s.ltmd p).etapa = .retira) : Transita e s p .shmctl { s.llega p .fin with
      segmentos := if 0 < (s.ltmd p).shmId1 then s.segmentos.filter fun x => x.2 ≠ (s.ltmd p).shmId1
        else s.segmentos }
  | muere (hp : (s.ltmd p).etapa = .retira) : Transita e s p .muere (s.llega p .fin)

variable {e : Sitio} {s s' : Estado} {p q : ℕ} {a : Llamada} {t : Etapa}

theorem trasRed_dueno {so : LlamadasRed} {ir : RedInterna} (h : trasRed so ir = some t) :
    t.dueno = true ∧ t.conSegmento = true ∧ t ≠ .chequeado := by
  have hcases : t = .libera ∨ t = .sirve ∨ t = .colgado := by
    unfold trasRed at h
    cases hfin : (iniciaInterfazRed so ir).1 with
    | desborda | exit => simp [hfin] at h
    | espera =>
        rw [hfin] at h
        obtain rfl := Option.some.inj h
        split
        · exact Or.inl rfl
        · exact Or.inr (Or.inr rfl)
    | retorna r =>
        rw [hfin] at h
        obtain rfl := Option.some.inj h
        split
        · exact Or.inl rfl
        · exact Or.inr (Or.inl rfl)
  rcases hcases with rfl | rfl | rfl <;> decide

theorem etapa_muere (h : ¬(t = .inicio ∨ t = .fin)) : t.dueno = true ∨ t = .retira := by
  cases t <;> simp [Etapa.dueno] at h ⊢

theorem transita_of_paso (h : paso e s (p, a) = some s') : Transita e s p a s' := by
  unfold paso at h
  dsimp only at h
  cases a with
  | abre r =>
      cases r with
      | none =>
          obtain ⟨hp, h⟩ := Option.ite_none_right_eq_some.mp h
          obtain rfl := Option.some.inj h
          exact .sinFichero hp
      | some i =>
          obtain ⟨hp, h⟩ := Option.ite_none_right_eq_some.mp h
          by_cases hf : s.fichero ≠ none
          · rw [if_pos hf] at h
            obtain rfl := Option.some.inj h
            exact .rechaza hp hf
          · rw [if_neg hf] at h
            obtain rfl := Option.some.inj h
            exact .toma hp (not_not.mp hf)
  | busca =>
      obtain ⟨hp, h⟩ := Option.ite_none_right_eq_some.mp h
      obtain rfl := Option.some.inj h
      by_cases ho : e.Ocupada s
      · rw [if_pos ho]
        exact .abandona (by rw [hp]; rfl) (.busca hp ho)
      · rw [if_neg ho]
        exact .avanza (by rw [hp]; rfl) rfl (by rw [hp]; rfl) (by simp) fun _ => ho
  | crea id =>
      cases id with
      | none =>
          obtain ⟨hp, h⟩ := Option.ite_none_right_eq_some.mp h
          obtain rfl := Option.some.inj h
          exact .abandona (by rw [hp]; rfl) .shmget
      | some id =>
          obtain ⟨hp, h⟩ := Option.ite_none_right_eq_some.mp h
          by_cases ho : e.Ocupada s
          · rw [if_pos ho] at h
            obtain rfl := Option.some.inj h
            exact .abandona (by rw [hp]; rfl) (.crea hp ho)
          · rw [if_neg ho] at h
            obtain ⟨⟨hid, hn⟩, h⟩ := Option.ite_none_right_eq_some.mp h
            obtain rfl := Option.some.inj h
            exact .crea hp ho hid hn
  | shmat bien =>
      obtain ⟨hp, h⟩ := Option.ite_none_right_eq_some.mp h
      obtain rfl := Option.some.inj h
      cases bien with
      | false => exact .abandona (by rw [hp]; rfl) .shmat
      | true => exact .avanza (by rw [hp]; rfl) rfl (by rw [hp]; rfl) (by simp) (by simp)
  | red so =>
      obtain ⟨hp, h⟩ := Option.ite_none_right_eq_some.mp h
      obtain ⟨t, ht, rfl⟩ := Option.map_eq_some_iff.mp h
      obtain ⟨hd, hs, hc⟩ := trasRed_dueno ht
      exact .avanza (by rw [hp]; rfl) hd (by rw [hp, hs]; rfl) (by simp)
        fun hb => absurd hb (by simp [hc])
  | sigint =>
      obtain ⟨hp, h⟩ := Option.ite_none_right_eq_some.mp h
      obtain rfl := Option.some.inj h
      exact .avanza (by rw [hp]; rfl) rfl (by rw [hp]; rfl) (by simp) (by simp)
  | unlink =>
      obtain ⟨hp, h⟩ := Option.ite_none_right_eq_some.mp h
      obtain rfl := Option.some.inj h
      exact .unlink hp
  | shmctl =>
      obtain ⟨hp, h⟩ := Option.ite_none_right_eq_some.mp h
      obtain rfl := Option.some.inj h
      exact .shmctl hp
  | muere =>
      obtain ⟨hp, h⟩ := Option.ite_none_left_eq_some.mp h
      obtain rfl := Option.some.inj h
      rcases etapa_muere hp with hd | hr
      · exact .abandona hd .muere
      · exact .muere hr

/-! ## One process at a time -/

@[simp] theorem pon_self (l : Ltmd) : (s.pon p l).ltmd p = l := by
  simp only [Estado.pon, Function.update_self]

theorem pon_of_ne (l : Ltmd) (h : q ≠ p) : (s.pon p l).ltmd q = s.ltmd q := by
  simp only [Estado.pon, Function.update_of_ne h]

theorem shmId1_llega : ((s.llega p t).ltmd q).shmId1 = (s.ltmd q).shmId1 := by
  by_cases h : q = p
  · rw [h, Estado.llega, pon_self]
  · rw [Estado.llega, pon_of_ne _ h]

theorem inodo_llega : ((s.llega p t).ltmd q).inodo = (s.ltmd q).inodo := by
  by_cases h : q = p
  · rw [h, Estado.llega, pon_self]
  · rw [Estado.llega, pon_of_ne _ h]

/-- What holds of the stage of every process, before and after one of them comes to `t`. -/
theorem etapa_llega {P : Etapa → Prop} (ht : P t → P (s.ltmd p).etapa)
    (h : P ((s.llega p t).ltmd q).etapa) : P (s.ltmd q).etapa := by
  by_cases hq : q = p
  · rw [hq, Estado.llega, pon_self] at h
    rw [hq]
    exact ht h
  · rwa [Estado.llega, pon_of_ne _ hq] at h

/-- The file belongs to one process at most, and every process that got so far has its own segment. -/
structure Orden (e : Sitio) (s : Estado) : Prop where
  fichero : ∀ p, (s.ltmd p).etapa.dueno = true → ∃ i, s.fichero = some i ∧ (s.ltmd p).inodo = some i
  unico : ∀ p q, (s.ltmd p).etapa.dueno = true → (s.ltmd q).etapa.dueno = true → p = q
  segmento : ∀ p, (s.ltmd p).etapa.conSegmento = true →
    ∃ i, (s.ltmd p).inodo = some i ∧ (e.ftok i, (s.ltmd p).shmId1) ∈ s.segmentos
  ids : ∀ p q, (s.ltmd p).etapa.conSegmento = true → (s.ltmd q).etapa.conSegmento = true →
    (s.ltmd p).shmId1 = (s.ltmd q).shmId1 → p = q
  claves : (s.segmentos.map Prod.fst).Nodup
  libre : ∀ p, (s.ltmd p).etapa = .chequeado → ¬e.Ocupada s

/-- `open` finds the file or makes it. -/
def Llamada.Abre (a : Llamada) : Prop := a ≠ .abre none

theorem clave_eq {i : ℕ} (h : s.fichero = some i) : e.clave s = e.ftok i := by
  rw [Sitio.clave, h]

theorem orden_llega (hi : Orden e s) (hd : t.dueno = true → (s.ltmd p).etapa.dueno = true)
    (hs : t.conSegmento = true → (s.ltmd p).etapa.conSegmento = true)
    (hc : t = .chequeado → ¬e.Ocupada s) : Orden e (s.llega p t) where
  fichero q hq := by
    rw [inodo_llega]
    exact hi.fichero q (etapa_llega (P := fun t => t.dueno = true) hd hq)
  unico q r hq hr := hi.unico q r (etapa_llega (P := fun t => t.dueno = true) hd hq)
    (etapa_llega (P := fun t => t.dueno = true) hd hr)
  segmento q hq := by
    rw [inodo_llega, shmId1_llega]
    exact hi.segmento q (etapa_llega (P := fun t => t.conSegmento = true) hs hq)
  ids q r hq hr hid := by
    rw [shmId1_llega, shmId1_llega] at hid
    exact hi.ids q r (etapa_llega (P := fun t => t.conSegmento = true) hs hq)
      (etapa_llega (P := fun t => t.conSegmento = true) hs hr) hid
  claves := hi.claves
  libre q hq := by
    by_cases hqp : q = p
    · rw [hqp, Estado.llega, pon_self] at hq
      exact hc hq
    · rw [Estado.llega, pon_of_ne _ hqp] at hq
      exact hi.libre q hq

/-- With no file there, the new one is of the process that opens it. -/
theorem orden_toma (hi : Orden e s) (hf : s.fichero = none) (i : ℕ) :
    Orden e { s.pon p { s.ltmd p with etapa := .abierto, inodo := some i } with fichero := some i } := by
  have hno : ∀ q, (s.ltmd q).etapa.dueno ≠ true := fun q hq => by
    obtain ⟨j, hj, -⟩ := hi.fichero q hq
    exact absurd (hf.symm.trans hj) (by simp)
  have hsolo : ∀ q, ((s.pon p { s.ltmd p with etapa := .abierto, inodo := some i }).ltmd q).etapa.dueno =
      true → q = p := fun q hq => by
    by_contra hne
    rw [pon_of_ne _ hne] at hq
    exact hno q hq
  have hsegmento : ∀ q, ((s.pon p { s.ltmd p with etapa := .abierto, inodo := some i }).ltmd
      q).etapa.conSegmento = true → q ≠ p := fun q hq hqp => by
    rw [hqp, pon_self] at hq
    exact absurd hq Bool.false_ne_true
  exact
    { fichero := fun q hq => ⟨i, rfl, by rw [hsolo q hq]; simp⟩
      unico := fun q r hq hr => (hsolo q hq).trans (hsolo r hr).symm
      segmento := fun q hq => by
        have hne := hsegmento q hq
        dsimp only at hq ⊢
        rw [pon_of_ne _ hne] at hq ⊢
        exact hi.segmento q hq
      ids := fun q r hq hr hid => by
        have hqp := hsegmento q hq
        have hrp := hsegmento r hr
        dsimp only at hq hr hid
        rw [pon_of_ne _ hqp] at hq hid
        rw [pon_of_ne _ hrp] at hr hid
        exact hi.ids q r hq hr hid
      claves := hi.claves
      libre := fun q hq => by
        have hqp : q = p := hsolo q (by rw [hq]; rfl)
        rw [hqp] at hq
        simp at hq }

theorem orden_crea (hi : Orden e s) (hp : (s.ltmd p).etapa = .chequeado) (hk : ¬e.Ocupada s) {id : Int}
    (hn : id ∉ s.segmentos.map Prod.snd) :
    Orden e { s.pon p { s.ltmd p with etapa := .creado, shmId1 := id } with
      segmentos := (e.clave s, id) :: s.segmentos } := by
  have hdp : (s.ltmd p).etapa.dueno = true := by rw [hp]; rfl
  have hdueno : ∀ q, ((s.pon p { s.ltmd p with etapa := .creado, shmId1 := id }).ltmd q).etapa.dueno =
      true → (s.ltmd q).etapa.dueno = true := fun q hq => by
    by_cases hqp : q = p
    · rwa [hqp]
    · rwa [pon_of_ne _ hqp] at hq
  have hajeno : ∀ q, (s.ltmd q).etapa.conSegmento = true → (s.ltmd q).shmId1 ≠ id := fun q hq he => by
    obtain ⟨i, -, hmem⟩ := hi.segmento q hq
    exact hn (List.mem_map.mpr ⟨_, hmem, he⟩)
  obtain ⟨i, hi1, hi2⟩ := hi.fichero p hdp
  exact
    { fichero := fun q hq => by
        obtain ⟨j, hj1, hj2⟩ := hi.fichero q (hdueno q hq)
        refine ⟨j, hj1, ?_⟩
        by_cases hqp : q = p
        · rw [hqp] at hj2 ⊢
          simpa using hj2
        · dsimp only
          rwa [pon_of_ne _ hqp]
      unico := fun q r hq hr => hi.unico q r (hdueno q hq) (hdueno r hr)
      segmento := fun q hq => by
        dsimp only at hq ⊢
        by_cases hqp : q = p
        · rw [hqp, pon_self]
          exact ⟨i, hi2, by rw [← clave_eq hi1]; exact List.mem_cons_self⟩
        · rw [pon_of_ne _ hqp] at hq ⊢
          obtain ⟨j, hj, hmem⟩ := hi.segmento q hq
          exact ⟨j, hj, List.mem_cons_of_mem _ hmem⟩
      ids := fun q r hq hr hid => by
        dsimp only at hq hr hid
        by_cases hqp : q = p
        · by_cases hrp : r = p
          · exact hqp.trans hrp.symm
          · rw [pon_of_ne _ hrp] at hr hid
            rw [hqp, pon_self] at hid
            exact absurd hid.symm (hajeno r hr)
        · rw [pon_of_ne _ hqp] at hq hid
          by_cases hrp : r = p
          · rw [hrp, pon_self] at hid
            exact absurd hid (hajeno q hq)
          · rw [pon_of_ne _ hrp] at hr hid
            exact hi.ids q r hq hr hid
      claves := List.nodup_cons.mpr ⟨hk, hi.claves⟩
      libre := fun q hq => by
        dsimp only at hq
        have hqp : q = p := by
          by_contra hne
          rw [pon_of_ne _ hne] at hq
          exact hne (hi.unico q p (by rw [hq]; rfl) hdp)
        rw [hqp, pon_self] at hq
        exact Etapa.noConfusion hq }

theorem orden_unlink (hi : Orden e s) (hp : (s.ltmd p).etapa = .libera) :
    Orden e { s.llega p .retira with fichero := none } := by
  have hdp : (s.ltmd p).etapa.dueno = true := by rw [hp]; rfl
  have hno : ∀ q, ((s.llega p .retira).ltmd q).etapa.dueno ≠ true := fun q hq => by
    by_cases hqp : q = p
    · rw [hqp, Estado.llega, pon_self] at hq
      exact Bool.false_ne_true hq
    · rw [Estado.llega, pon_of_ne _ hqp] at hq
      exact hqp (hi.unico q p hq hdp)
  have hllega : Orden e (s.llega p .retira) :=
    orden_llega hi (fun h => absurd h (by decide)) (fun _ => by rw [hp]; rfl) (by simp)
  exact
    { fichero := fun q hq => absurd hq (hno q)
      unico := fun q r hq _ => absurd hq (hno q)
      segmento := hllega.segmento
      ids := hllega.ids
      claves := hllega.claves
      libre := fun q hq => absurd (by rw [hq]; rfl) (hno q) }

theorem orden_shmctl (hi : Orden e s) (hp : (s.ltmd p).etapa = .retira) :
    Orden e { s.llega p .fin with
      segmentos := if 0 < (s.ltmd p).shmId1 then s.segmentos.filter fun x => x.2 ≠ (s.ltmd p).shmId1
        else s.segmentos } := by
  have hllega : Orden e (s.llega p .fin) :=
    orden_llega hi (fun h => absurd h (by decide)) (fun h => absurd h (by decide)) (by simp)
  by_cases hpos : 0 < (s.ltmd p).shmId1
  · rw [if_pos hpos]
    have hsub := List.filter_sublist (p := fun x => decide (x.2 ≠ (s.ltmd p).shmId1)) (l := s.segmentos)
    exact
      { fichero := hllega.fichero
        unico := hllega.unico
        segmento := fun q hq => by
          have hne : q ≠ p := fun hqp => by
            dsimp only at hq
            rw [hqp, Estado.llega, pon_self] at hq
            exact Bool.false_ne_true hq
          obtain ⟨i, hq1, hmem⟩ := hllega.segmento q hq
          have hs := etapa_llega (P := fun t => t.conSegmento = true) (fun h => absurd h (by decide)) hq
          refine ⟨i, hq1, List.mem_filter.mpr ⟨hmem, decide_eq_true fun hid => hne ?_⟩⟩
          exact hi.ids q p hs (by rw [hp]; rfl) (shmId1_llega.symm.trans hid)
        ids := hllega.ids
        claves := (hsub.map Prod.fst).nodup hi.claves
        libre := fun q hq ho => hllega.libre q hq ((hsub.map Prod.fst).subset ho) }
  · rw [if_neg hpos]
    exact hllega

theorem orden_paso (hi : Orden e s) (ha : a.Abre) (h : paso e s (p, a) = some s') : Orden e s' := by
  cases transita_of_paso h with
  | sinFichero => exact absurd rfl ha
  | rechaza | muere =>
      exact orden_llega hi (fun h => absurd h (by decide)) (fun h => absurd h (by decide)) (by simp)
  | toma hp hf => exact orden_toma hi hf _
  | avanza hp ht hseg _ hb => exact orden_llega hi (fun _ => hp) (fun h => hseg ▸ h) fun h => hb (Or.inr h)
  | crea hp hk _ hn => exact orden_crea hi hp hk hn
  | abandona =>
      exact orden_llega hi (fun h => absurd h (by decide)) (fun h => absurd h (by decide)) (by simp)
  | unlink hp => exact orden_unlink hi hp
  | shmctl hp => exact orden_shmctl hi hp

theorem orden_inicial (e : Sitio) : Orden e inicial where
  fichero p hp := absurd hp (by simp [inicial, Etapa.dueno])
  unico p q hp _ := absurd hp (by simp [inicial, Etapa.dueno])
  segmento p hp := absurd hp (by simp [inicial, Etapa.conSegmento])
  ids p q hp _ _ := absurd hp (by simp [inicial, Etapa.conSegmento])
  claves := List.nodup_nil
  libre p hp := absurd hp (by simp [inicial])

/-- In every step of the run the file can be made if it is not there. -/
abbrev Abren (e : Sitio) (s : Estado) (es : List (ℕ × Llamada)) : Prop :=
  Along (paso e) (fun _ x _ => x.2.Abre) s es

variable {es es' : List (ℕ × Llamada)}

theorem orden_run (ha : Abren e inicial es) (hr : run (paso e) inicial es = some s) : Orden e s :=
  run_invariant (Orden e) (fun _ x _ => x.2.Abre) (fun _ _ _ hi ha h => orden_paso hi ha h)
    (orden_inicial e) ha hr

theorem encuentra_eq (hi : Orden e s) (hp : (s.ltmd p).etapa.dueno = true)
    (hs : (s.ltmd p).etapa.conSegmento = true) : e.encuentra s = some (s.ltmd p).shmId1 := by
  obtain ⟨i, hi1, hi2⟩ := hi.fichero p hp
  obtain ⟨j, hj, hmem⟩ := hi.segmento p hs
  obtain rfl : i = j := Option.some.inj (hi2.symm.trans hj)
  rw [Sitio.encuentra, clave_eq hi1]
  exact (CommandLine.lookup_eq_some_iff hi.claves).mpr hmem

/-- At every moment one process at most has the file, and while it serves, `shmget` finds its segment,
for the applications too. -/
theorem exclusion (ha : Abren e inicial es) (hr : run (paso e) inicial es = some s) :
    (∀ p q, (s.ltmd p).etapa.dueno = true → (s.ltmd q).etapa.dueno = true → p = q) ∧
      ∀ p, (s.ltmd p).etapa = .sirve → e.encuentra s = some (s.ltmd p).shmId1 := by
  have hi := orden_run ha hr
  refine ⟨hi.unico, fun p hp => encuentra_eq hi ?_ ?_⟩ <;> rw [hp] <;> rfl

/-! ## A file left behind -/

/-- The file is there, and no process will remove it. -/
structure Estado.Abandonado (s : Estado) : Prop where
  fichero : s.fichero ≠ none
  nadie : ∀ p, (s.ltmd p).etapa.dueno = false

/-- The process of the step ends with its file in place. -/
def Abandona (s : Estado) (x : ℕ × Llamada) (s' : Estado) : Prop :=
  (s.ltmd x.1).etapa.dueno = true ∧ (s'.ltmd x.1).etapa = .fin

theorem abandonado_llega (hp : (s.ltmd p).etapa.dueno = false) (ht : t.dueno = false)
    (segmentos : List (Int × Int)) :
    { s.llega p t with segmentos := segmentos }.Abandonado ↔ s.Abandonado := by
  have hdueno : ∀ q, ((s.llega p t).ltmd q).etapa.dueno = (s.ltmd q).etapa.dueno := fun q => by
    by_cases hq : q = p
    · rw [hq, Estado.llega, pon_self, hp, ht]
    · rw [Estado.llega, pon_of_ne _ hq]
  exact ⟨fun h => ⟨h.fichero, fun q => (hdueno q).symm.trans (h.nadie q)⟩,
    fun h => ⟨h.fichero, fun q => (hdueno q).trans (h.nadie q)⟩⟩

theorem not_abandonado (hp : (s.ltmd p).etapa.dueno = true) : ¬s.Abandonado := fun h =>
  Bool.false_ne_true ((h.nadie p).symm.trans hp)

/-- A step leaves the file behind only as the end of the process that has it. -/
theorem abandonado_paso (hi : Orden e s) (ha : a.Abre) (h : paso e s (p, a) = some s') :
    s'.Abandonado ↔ s.Abandonado ∨ Abandona s (p, a) s' := by
  have hotro : (s.ltmd p).etapa.dueno = false → ¬Abandona s (p, a) s' := fun hp hc =>
    Bool.false_ne_true (hp.symm.trans hc.1)
  have hsigue : (s.ltmd p).etapa.dueno = true → (s'.ltmd p).etapa ≠ .fin →
      ¬s'.Abandonado → (s'.Abandonado ↔ s.Abandonado ∨ Abandona s (p, a) s') := fun hp hfin hno =>
    iff_of_false hno (not_or.mpr ⟨not_abandonado hp, fun hc => hfin hc.2⟩)
  cases transita_of_paso h with
  | sinFichero => exact absurd rfl ha
  | rechaza hp =>
      have hd : (s.ltmd p).etapa.dueno = false := by rw [hp]; rfl
      exact (abandonado_llega hd rfl s.segmentos).trans (or_iff_left (hotro hd)).symm
  | toma hp hf =>
      have hd : (s.ltmd p).etapa.dueno = false := by rw [hp]; rfl
      refine iff_of_false (not_abandonado (p := p) (by simp [Etapa.dueno])) ?_
      exact not_or.mpr ⟨fun h => h.fichero hf, hotro hd⟩
  | @avanza _ t hp ht =>
      have hself : ((s.llega p t).ltmd p).etapa.dueno = true := by rwa [Estado.llega, pon_self]
      exact hsigue hp (fun hfin => by rw [hfin] at hself; exact Bool.false_ne_true hself)
        (not_abandonado hself)
  | crea hp =>
      exact hsigue (by rw [hp]; rfl) (by simp) (not_abandonado (p := p) (by simp [Etapa.dueno]))
  | abandona hp =>
      obtain ⟨i, hf, -⟩ := hi.fichero p hp
      refine iff_of_true ⟨fun hnone => absurd (hf.symm.trans hnone) (by simp), fun q => ?_⟩
        (Or.inr ⟨hp, by simp [Estado.llega]⟩)
      by_cases hq : q = p
      · rw [hq, Estado.llega, pon_self]
        rfl
      · rw [Estado.llega, pon_of_ne _ hq]
        exact Bool.eq_false_iff.mpr fun hc => hq (hi.unico q p hc hp)
  | unlink hp =>
      exact hsigue (by rw [hp]; rfl) (by simp [Estado.llega]) fun h => h.fichero rfl
  | shmctl hp | muere hp =>
      have hd : (s.ltmd p).etapa.dueno = false := by rw [hp]; rfl
      exact (abandonado_llega hd rfl _).trans (or_iff_left (hotro hd)).symm

theorem abandonado_run (hi : Orden e s) (ha : Abren e s es) (hr : run (paso e) s es = some s') :
    s'.Abandonado ↔ s.Abandonado ∨ ¬Along (paso e) (fun s x s' => ¬Abandona s x s') s es := by
  induction es generalizing s with
  | nil =>
      obtain rfl := Option.some.inj hr
      exact (or_iff_left (not_not.mpr trivial)).symm
  | cons x es ih =>
      obtain ⟨s₁, hs, hr'⟩ := run_cons_eq_some hr
      obtain ⟨hx, ha'⟩ := (Along.cons_of_some hs).mp ha
      rw [ih (orden_paso hi hx hs) ha' hr', abandonado_paso hi hx hs, Along.cons_of_some hs, not_and_or,
        not_not, or_assoc]

/-- Once the file is left behind it stays, and every process that finds it ends. -/
theorem rechaza_paso (hab : s.Abandonado) (ha : a.Abre)
    (h : paso e s (p, a) = some s') : s'.fichero = s.fichero ∧
      ((s.ltmd p).etapa = .inicio → (s'.ltmd p).etapa = .fin) := by
  cases transita_of_paso h with
  | sinFichero => exact absurd rfl ha
  | rechaza hp => exact ⟨rfl, fun _ => by simp [Estado.llega]⟩
  | toma hp hf => exact absurd hf hab.fichero
  | avanza hp | abandona hp => exact absurd hab (not_abandonado hp)
  | crea hp | unlink hp => exact absurd hab (not_abandonado (p := p) (by rw [hp]; rfl))
  | shmctl hp | muere hp => exact ⟨rfl, fun hini => absurd (hini.symm.trans hp) (by simp)⟩

/-- The file is left behind just when some process has ended before `libera_recursos`, and from then
on no `ltmd` gets past `chequeo_inicial`. -/
theorem rechazadas (ha : Abren e inicial es) (hr : run (paso e) inicial es = some s) :
    (s.Abandonado ↔ ¬Along (paso e) (fun s x s' => ¬Abandona s x s') inicial es) ∧
      (s.Abandonado → ∀ es', Abren e s es' → Along (paso e) (fun s x s' => s'.Abandonado ∧
        s'.fichero = s.fichero ∧ ((s.ltmd x.1).etapa = .inicio → (s'.ltmd x.1).etapa = .fin)) s es') := by
  have hi := orden_run ha hr
  constructor
  · have hini : ¬inicial.Abandonado := fun h => h.fichero rfl
    rw [abandonado_run (orden_inicial e) ha hr]
    exact or_iff_right hini
  · intro hab es' ha'
    have hstep : ∀ s x s', Orden e s ∧ s.Abandonado → Llamada.Abre x.2 → paso e s x = some s' →
        Orden e s' ∧ s'.Abandonado := fun s x s' hs hx h =>
      ⟨orden_paso hs.1 hx h, (abandonado_paso hs.1 hx h).mpr (Or.inl hs.2)⟩
    refine along_of_invariant (fun s => Orden e s ∧ s.Abandonado) (fun _ x _ => x.2.Abre) hstep
      (fun s x s' hs hx h => ⟨(hstep s x s' hs hx h).2, rechaza_paso hs.2 hx h⟩) ⟨hi, hab⟩ ha'

/-! ## Runs without accidents -/

/-- The call is answered as it should: no error but those the files and segments themselves give, an
identifier that is not `0`, and no process ends by a signal. -/
def Llamada.Limpia : Llamada → Prop
  | .abre r => r ≠ none
  | .crea r => ∃ id, r = some id ∧ 0 < id
  | .shmat bien => bien = true
  | .muere => False
  | .busca | .red _ | .sigint | .unlink | .shmctl => True

theorem abre_of_limpia (h : a.Limpia) : a.Abre := by
  rintro rfl
  exact h rfl

/-- Every segment is that of a process, under the key of the file it has created. -/
structure Limpieza (e : Sitio) (s : Estado) : Prop where
  propio : ∀ x ∈ s.segmentos, ∃ p i, (s.ltmd p).etapa.conSegmento = true ∧ (s.ltmd p).shmId1 = x.2 ∧
    (s.ltmd p).inodo = some i ∧ e.ftok i = x.1
  positivo : ∀ p, (s.ltmd p).etapa.conSegmento = true → 0 < (s.ltmd p).shmId1

theorem limpieza_llega (hl : Limpieza e s) (ht : t.conSegmento = (s.ltmd p).etapa.conSegmento) :
    Limpieza e (s.llega p t) := by
  have hseg : ∀ q, ((s.llega p t).ltmd q).etapa.conSegmento = (s.ltmd q).etapa.conSegmento := fun q => by
    by_cases hq : q = p
    · rw [hq, Estado.llega, pon_self, ← ht]
    · rw [Estado.llega, pon_of_ne _ hq]
  exact
    { propio := fun x hx => by
        obtain ⟨q, i, hq, hid, hi, hk⟩ := hl.propio x hx
        exact ⟨q, i, (hseg q).trans hq, shmId1_llega.trans hid, inodo_llega.trans hi, hk⟩
      positivo := fun q hq => by
        rw [shmId1_llega]
        exact hl.positivo q ((hseg q).symm.trans hq) }

theorem limpieza_toma (hl : Limpieza e s) (hp : (s.ltmd p).etapa = .inicio) (i : ℕ) :
    Limpieza e
      { s.pon p { s.ltmd p with etapa := .abierto, inodo := some i } with fichero := some i } where
  propio x hx := by
    obtain ⟨q, j, hq, hrest⟩ := hl.propio x hx
    have hne : q ≠ p := fun hqp => by
      rw [hqp, hp] at hq
      exact Bool.false_ne_true hq
    refine ⟨q, j, ?_⟩
    dsimp only
    rw [pon_of_ne _ hne]
    exact ⟨hq, hrest⟩
  positivo q hq := by
    dsimp only at hq ⊢
    by_cases hqp : q = p
    · rw [hqp, pon_self] at hq
      exact absurd hq Bool.false_ne_true
    · rw [pon_of_ne _ hqp] at hq ⊢
      exact hl.positivo q hq

theorem limpieza_crea (hi : Orden e s) (hl : Limpieza e s) (hp : (s.ltmd p).etapa = .chequeado) {id : Int}
    (hid : 0 < id) :
    Limpieza e { s.pon p { s.ltmd p with etapa := .creado, shmId1 := id } with
      segmentos := (e.clave s, id) :: s.segmentos } where
  propio x hx := by
    dsimp only at hx ⊢
    rcases List.mem_cons.mp hx with rfl | hx
    · obtain ⟨i, hi1, hi2⟩ := hi.fichero p (by rw [hp]; rfl)
      refine ⟨p, i, ?_⟩
      rw [pon_self]
      exact ⟨rfl, rfl, hi2, (clave_eq hi1).symm⟩
    · obtain ⟨q, j, hq, hrest⟩ := hl.propio x hx
      have hne : q ≠ p := fun hqp => by
        rw [hqp, hp] at hq
        exact Bool.false_ne_true hq
      refine ⟨q, j, ?_⟩
      rw [pon_of_ne _ hne]
      exact ⟨hq, hrest⟩
  positivo q hq := by
    dsimp only at hq ⊢
    by_cases hqp : q = p
    · rw [hqp, pon_self]
      exact hid
    · rw [pon_of_ne _ hqp] at hq ⊢
      exact hl.positivo q hq

theorem limpieza_shmctl (hl : Limpieza e s) (hp : (s.ltmd p).etapa = .retira) :
    Limpieza e { s.llega p .fin with
      segmentos := if 0 < (s.ltmd p).shmId1 then s.segmentos.filter fun x => x.2 ≠ (s.ltmd p).shmId1
        else s.segmentos } := by
  rw [if_pos (hl.positivo p (by rw [hp]; rfl))]
  exact
    { propio := fun x hx => by
        obtain ⟨hmem, hne⟩ := List.mem_filter.mp hx
        obtain ⟨q, i, hq, hid, hrest⟩ := hl.propio x hmem
        have hqp : q ≠ p := fun hqp => of_decide_eq_true hne (by rw [← hid, hqp])
        refine ⟨q, i, ?_⟩
        dsimp only
        rw [Estado.llega, pon_of_ne _ hqp]
        exact ⟨hq, hid, hrest⟩
      positivo := fun q hq => by
        have hs : (s.ltmd q).etapa.conSegmento = true :=
          etapa_llega (P := fun t => t.conSegmento = true) (t := .fin) (fun h => absurd h (by decide)) hq
        rw [shmId1_llega]
        exact hl.positivo q hs }

/-- In a run without accidents a process that has its file ends only where it finds a segment. -/
theorem causa_limpia (hi : Orden e s) (ha : a.Limpia) (hc : Causa e s p a) :
    a = .busca ∧ (s.ltmd p).etapa = .abierto ∧ e.Ocupada s := by
  cases hc with
  | busca hp ho => exact ⟨rfl, hp, ho⟩
  | crea hp ho => exact absurd ho (hi.libre p hp)
  | shmget =>
      obtain ⟨id, hid, -⟩ := ha
      exact absurd hid (by simp)
  | shmat => exact absurd ha Bool.false_ne_true
  | muere => exact ha.elim

theorem limpieza_paso (hi : Orden e s) (hl : Limpieza e s) (ha : a.Limpia)
    (h : paso e s (p, a) = some s') : Limpieza e s' := by
  cases transita_of_paso h with
  | sinFichero => exact absurd rfl ha
  | rechaza hp => exact limpieza_llega hl (by rw [hp]; rfl)
  | toma hp => exact limpieza_toma hl hp _
  | avanza hp ht hseg => exact limpieza_llega hl hseg
  | crea hp =>
      obtain ⟨id, hid, hpos⟩ := ha
      obtain rfl := Option.some.inj hid
      exact limpieza_crea hi hl hp hpos
  | abandona hp hc =>
      obtain ⟨-, hp, -⟩ := causa_limpia hi ha hc
      exact limpieza_llega hl (by rw [hp]; rfl)
  | unlink hp =>
      have hllega : Limpieza e (s.llega p .retira) := limpieza_llega hl (by rw [hp]; rfl)
      exact ⟨hllega.propio, hllega.positivo⟩
  | shmctl hp => exact limpieza_shmctl hl hp
  | muere => exact ha.elim

/-- `chequeo_inicial` looks for a segment while another process, whose file had the same key, is
between its `unlink` and its `shmctl`. -/
def Carrera (e : Sitio) (s : Estado) (x : ℕ × Llamada) : Prop :=
  x.2 = .busca ∧ ∃ q i, (s.ltmd q).etapa = .retira ∧ (s.ltmd q).inodo = some i ∧ e.ftok i = e.clave s

theorem causa_of_abandona (h : paso e s (p, a) = some s') (hab : Abandona s (p, a) s') :
    Causa e s p a := by
  obtain ⟨hd, hfin⟩ := hab
  dsimp only at hd hfin
  cases transita_of_paso h with
  | sinFichero hp | rechaza hp | toma hp | shmctl hp | muere hp =>
      rw [hp] at hd
      exact absurd hd Bool.false_ne_true
  | avanza hp ht =>
      rw [Estado.llega, pon_self] at hfin
      dsimp only at hfin
      rw [hfin] at ht
      exact absurd ht Bool.false_ne_true
  | crea => simp at hfin
  | abandona hp hc => exact hc
  | unlink => simp [Estado.llega] at hfin

theorem eq_retira (hs : t.conSegmento = true) (hd : t.dueno ≠ true) : t = .retira := by
  cases t <;> simp [Etapa.conSegmento, Etapa.dueno] at hs hd ⊢

theorem abandona_iff_carrera (hi : Orden e s) (hl : Limpieza e s) (ha : a.Limpia)
    (h : paso e s (p, a) = some s') : Abandona s (p, a) s' ↔ Carrera e s (p, a) := by
  constructor
  · intro hab
    obtain ⟨rfl, hp, ho⟩ := causa_limpia hi ha (causa_of_abandona h hab)
    obtain ⟨x, hx, hk⟩ := List.mem_map.mp ho
    obtain ⟨q, i, hq, -, hin, hki⟩ := hl.propio x hx
    have hnd : (s.ltmd q).etapa.dueno ≠ true := fun hd => by
      rw [hi.unico q p hd hab.1, hp] at hq
      exact Bool.false_ne_true hq
    exact ⟨rfl, q, i, eq_retira hq hnd, hin, hki.trans hk⟩
  · rintro ⟨hb, q, i, hq, hin, hk⟩
    dsimp only at hb
    subst hb
    obtain ⟨j, hj, hmem⟩ := hi.segmento q (by rw [hq]; rfl)
    obtain rfl : i = j := Option.some.inj (hin.symm.trans hj)
    have ho : e.Ocupada s := List.mem_map.mpr ⟨_, hmem, hk⟩
    cases transita_of_paso h with
    | avanza _ _ _ _ hlibre => exact absurd ho (hlibre (Or.inl rfl))
    | abandona hp => exact ⟨hp, by simp [Estado.llega]⟩

/-- Where nothing fails and nobody is killed, the file is left behind just when an `ltmd` has started
while another was between its `unlink` and its `shmctl`; and no segment is left without its process. -/
theorem carrera (hl : Along (paso e) (fun _ x _ => x.2.Limpia) inicial es)
    (hr : run (paso e) inicial es = some s) :
    (s.Abandonado ↔ ¬Along (paso e) (fun s x _ => ¬Carrera e s x) inicial es) ∧
      ∀ x ∈ s.segmentos, ∃ p, (s.ltmd p).etapa.conSegmento = true ∧ (s.ltmd p).shmId1 = x.2 := by
  have hstep : ∀ s x s', Orden e s ∧ Limpieza e s → x.2.Limpia → paso e s x = some s' →
      Orden e s' ∧ Limpieza e s' := fun s x s' hs hx h =>
    ⟨orden_paso hs.1 (abre_of_limpia hx) h, limpieza_paso hs.1 hs.2 hx h⟩
  have hini : Orden e inicial ∧ Limpieza e inicial :=
    ⟨orden_inicial e, fun x hx => absurd hx List.not_mem_nil,
      fun p hp => absurd hp (by simp [inicial, Etapa.conSegmento])⟩
  have hfin : Orden e s ∧ Limpieza e s :=
    run_invariant (fun s => Orden e s ∧ Limpieza e s) (fun _ x _ => x.2.Limpia) hstep hini hl hr
  have hab : Abren e inicial es :=
    along_of_invariant (fun s => Orden e s ∧ Limpieza e s) (fun _ x _ => x.2.Limpia) hstep
      (fun _ _ _ _ hx _ => abre_of_limpia hx) hini hl
  constructor
  · have hnadie : ¬inicial.Abandonado := fun h => h.fichero rfl
    rw [abandonado_run hini.1 hab hr, or_iff_right hnadie, not_iff_not]
    exact along_iff_along_of (fun s => Orden e s ∧ Limpieza e s) (fun s x _ => ¬Carrera e s x)
      (fun _ x _ => x.2.Limpia) (fun s x s' hs hx _ h => hstep s x s' hs hx h)
      (fun s x s' hs hx h => not_congr (abandona_iff_carrera hs.1 hs.2 hx h)) es hini hl
  · intro x hx
    obtain ⟨p, i, hp, hid, -⟩ := hfin.2.propio x hx
    exact ⟨p, hp, hid⟩

/-! ## Two runs -/

def sitio : Sitio := ⟨1, fun _ => ⟨"eth0", 0, 233⟩⟩

/-- The first `ltmd` serves and the second is turned away. -/
def arranca : List (ℕ × Llamada) :=
  [(0, .abre (some 5)), (0, .busca), (0, .crea (some 3)), (0, .shmat true), (0, .red (soRed 7)),
    (1, .abre (some 5))]

/-- Then the first one stops, and a third starts in the middle of it. -/
def coincide : List (ℕ × Llamada) :=
  arranca ++ [(0, .sigint), (0, .unlink), (2, .abre (some 5))] ++ [(2, .busca), (0, .shmctl)]

theorem exclusion_arranca : ∃ s, run (paso sitio) inicial arranca = some s ∧
    (s.ltmd 0).etapa = .sirve ∧ sitio.encuentra s = some 3 := by
  have hr : run (paso sitio) inicial arranca = some _ := rfl
  have ha : Abren sitio inicial arranca := Along.of_mem (by simp [arranca, Llamada.Abre]) _
  exact ⟨_, hr, rfl, (exclusion ha hr).2 0 rfl⟩

/-- A process that is killed after its `open`: the next one ends at once. -/
theorem rechazadas_muere : ∃ s, run (paso sitio) inicial [(0, .abre (some 5)), (0, .muere)] = some s ∧
    s.Abandonado ∧ Along (paso sitio) (fun s x s' => s'.Abandonado ∧ s'.fichero = s.fichero ∧
      ((s.ltmd x.1).etapa = .inicio → (s'.ltmd x.1).etapa = .fin)) s [(1, .abre (some 9))] := by
  have hr : run (paso sitio) inicial [(0, .abre (some 5)), (0, .muere)] = some _ := rfl
  have ha : Abren sitio inicial [(0, .abre (some 5)), (0, .muere)] := Along.of_mem (by simp [Llamada.Abre]) _
  have h := rechazadas ha hr
  have hab := h.1.mpr fun hno => hno.2.1 ⟨rfl, rfl⟩
  exact ⟨_, hr, hab, h.2 hab _ (Along.of_mem (by simp [Llamada.Abre]) _)⟩

theorem carrera_coincide : ∃ s, run (paso sitio) inicial coincide = some s ∧ s.Abandonado ∧
    s.segmentos = [] := by
  have hr : run (paso sitio) inicial coincide = some _ := rfl
  have hl : Along (paso sitio) (fun _ x _ => x.2.Limpia) inicial coincide :=
    Along.of_mem (by simp [coincide, arranca, Llamada.Limpia]) _
  refine ⟨_, hr, (carrera hl hr).1.mpr fun hno => ?_, rfl⟩
  have hunlink : run (paso sitio) inicial (arranca ++ [(0, .sigint), (0, .unlink), (2, .abre (some 5))]) =
    some _ := rfl
  have hbusca := ((Along.append hunlink).mp hno).2
  exact ((Along.cons_of_some rfl).mp hbusca).1 ⟨rfl, 0, 5, rfl, rfl, rfl⟩

end Ltm.Arranque
