import Ltm.Foundations.CommandLine
import Ltm.Comunicacion.Descriptor

/-! # The command line of `ltmd`: `procesa_argumentos`

The options are `-s` dir_proto, `-e` perror, `-p` ltm_protocol, `-i` interfaz and `-n` NUM_BUF_PKTS. Each
writes one global variable of the daemon, the texts with `strcpy` and the numbers with `atoi`; nothing
is checked. The last argument of an option counts, and the protocol is `233` without `-p`.
-/

namespace Ltm.Daemon
open CommandLine Comunicacion
set_option autoImplicit false
set_option maxHeartbeats 250000

/-- The global variables that the command line sets. -/
structure Parametros where
  /-- `char dir_proto[64]` -/
  dirProto : List Char
  pe : Int
  ltmProtocol : Int
  /-- `char interfaz[8]` -/
  interfaz : List Char
  numBufPkts : Int
  deriving DecidableEq, Repr

/-- The values that `ltmdaemon.cc` gives them; the file is `KERNEL_MEM_ADDR`. -/
def parametrosIniciales : Parametros :=
  ⟨['s', '.', 'l', 't', 'm', 'd', 'g'], 0, 140, ['e', 't', 'h', '0'], 100⟩

/-- The letters of `"s:e:p:i:n:"`, which all take an argument. -/
def opcion (c : Char) : Option Kind := if c ∈ ['s', 'e', 'p', 'i', 'n'] then some .argument else none

/-- The `switch` of `procesa_argumentos`; `none` is a `strcpy` past the end of its array. -/
def asigna (q : Parametros) (x : Char × Word) : Option Parametros :=
  if x.1 = 's' then if x.2.length < 64 then some { q with dirProto := x.2 } else none
  else if x.1 = 'e' then some { q with pe := atoi x.2 }
  else if x.1 = 'p' then some { q with ltmProtocol := atoi x.2 }
  else if x.1 = 'i' then if x.2.length < 8 then some { q with interfaz := x.2 } else none
  else if x.1 = 'n' then some { q with numBufPkts := atoi x.2 }
  else some q

/-- `procesa_argumentos` with `argv[1]` and the words behind it. -/
def procesaArgumentos (argv : List Word) (q : Parametros) : Option Parametros :=
  (options opcion none argv).foldlM asigna { q with ltmProtocol := 233 }

/-- The text of an option fits its array. -/
def Cabe (x : Char × Word) : Prop := (x.1 = 's' → x.2.length < 64) ∧ (x.1 = 'i' → x.2.length < 8)

instance (x : Char × Word) : Decidable (Cabe x) := inferInstanceAs (Decidable ((_ → _) ∧ (_ → _)))

/-- The variables after the options `l`: the last argument of each, or what was there. -/
def Parametros.tras (q : Parametros) (l : List (Char × Word)) : Parametros where
  dirProto := ((last 's' l).map id).getD q.dirProto
  pe := ((last 'e' l).map atoi).getD q.pe
  ltmProtocol := ((last 'p' l).map atoi).getD q.ltmProtocol
  interfaz := ((last 'i' l).map id).getD q.interfaz
  numBufPkts := ((last 'n' l).map atoi).getD q.numBufPkts

variable {argv : List Word} {q q' q'' : Parametros} {x : Char × Word} {l : List (Char × Word)}

/-- One option writes its own variable, which later ones of its letter write again. -/
theorem tras_cons (h : asigna q x = some q') : q.tras (x :: l) = q'.tras l := by
  obtain ⟨c, w⟩ := x
  unfold asigna at h
  dsimp only at h
  unfold Parametros.tras
  simp only [getD_last_cons]
  by_cases hs : c = 's'
  · subst hs
    rw [if_pos rfl] at h
    obtain rfl := Option.some.inj (Option.ite_none_right_eq_some.mp h).2
    rfl
  rw [if_neg hs] at h
  by_cases he : c = 'e'
  · subst he
    obtain rfl := Option.some.inj h
    rfl
  rw [if_neg he] at h
  by_cases hp : c = 'p'
  · subst hp
    obtain rfl := Option.some.inj h
    rfl
  rw [if_neg hp] at h
  by_cases hi : c = 'i'
  · subst hi
    rw [if_pos rfl] at h
    obtain rfl := Option.some.inj (Option.ite_none_right_eq_some.mp h).2
    rfl
  rw [if_neg hi] at h
  by_cases hn : c = 'n'
  · subst hn
    obtain rfl := Option.some.inj h
    rfl
  rw [if_neg hn] at h
  obtain rfl := Option.some.inj h
  simp only [Ne.symm hs, Ne.symm he, Ne.symm hp, Ne.symm hi, Ne.symm hn, if_false]

theorem asigna_eq_none_iff : asigna q x = none ↔ ¬Cabe x := by
  unfold asigna Cabe
  by_cases hs : x.1 = 's'
  · simp [hs]
  by_cases hi : x.1 = 'i'
  · simp [hi]
  simp only [hi, hs, if_false, false_implies, and_self, not_true_eq_false, iff_false]
  split
  · simp
  · split
    · simp
    · split <;> simp

theorem foldlM_asigna : l.foldlM asigna q = some q' ↔ (∀ x ∈ l, Cabe x) ∧ q' = q.tras l := by
  induction l generalizing q with
  | nil =>
      rw [List.foldlM_nil]
      exact ⟨fun h => ⟨by simp, (Option.some.inj h).symm⟩, fun h => congrArg some h.2.symm⟩
  | cons x l ih =>
      rw [List.foldlM_cons, List.forall_mem_cons]
      cases hx : asigna q x with
      | none => exact iff_of_false (by simp) fun h => asigna_eq_none_iff.mp hx h.1.1
      | some q₁ =>
          have hcabe : Cabe x := by
            by_contra hno
            rw [asigna_eq_none_iff.mpr hno] at hx
            exact absurd hx (by simp)
          rw [Option.bind_eq_bind, Option.bind_some, ih, tras_cons hx]
          exact ⟨fun h => ⟨⟨hcabe, h.1⟩, h.2⟩, fun h => ⟨h.1.2, h.2⟩⟩

/-- What the daemon makes of any command line. -/
theorem procesaArgumentos_iff : procesaArgumentos argv q = some q' ↔
    (∀ x ∈ options opcion none argv, Cabe x) ∧
      q' = { q with ltmProtocol := 233 }.tras (options opcion none argv) := foldlM_asigna

/-! ## Command lines for given parameters -/

/-- The parameters that a command line can express. -/
structure Parametros.Legal (q : Parametros) : Prop where
  dirProto : q.dirProto.length < 64
  interfaz : q.interfaz.length < 8
  pe : -2147483648 ≤ q.pe ∧ q.pe < 2147483648
  ltmProtocol : -2147483648 ≤ q.ltmProtocol ∧ q.ltmProtocol < 2147483648
  numBufPkts : -2147483648 ≤ q.numBufPkts ∧ q.numBufPkts < 2147483648

def Parametros.opciones (q : Parametros) : List (Char × Word) :=
  [('s', q.dirProto), ('e', Decimal.print q.pe), ('p', Decimal.print q.ltmProtocol),
    ('i', q.interfaz), ('n', Decimal.print q.numBufPkts)]

theorem nodup_opciones : (q.opciones.map Prod.fst).Nodup :=
  (by decide : ['s', 'e', 'p', 'i', 'n'].Nodup)

theorem cabe_opciones (hq : q.Legal) : ∀ x ∈ q.opciones, Cabe x := by
  simp only [Parametros.opciones, List.forall_mem_cons, Cabe]
  exact ⟨⟨fun _ => hq.dirProto, fun h => absurd h (by decide)⟩,
    ⟨fun h => absurd h (by decide), fun h => absurd h (by decide)⟩,
    ⟨fun h => absurd h (by decide), fun h => absurd h (by decide)⟩,
    ⟨fun h => absurd h (by decide), fun _ => hq.interfaz⟩,
    ⟨fun h => absurd h (by decide), fun h => absurd h (by decide)⟩, by simp⟩

theorem tras_opciones (hq : q.Legal) (q₀ : Parametros) (hl : l.Perm q.opciones) : q₀.tras l = q := by
  have h : ∀ c w, (c, w) ∈ q.opciones → last c l = some w :=
    fun c w => last_of_mem_perm nodup_opciones hl
  have hs := h 's' q.dirProto (by simp [Parametros.opciones])
  have he := h 'e' (Decimal.print q.pe) (by simp [Parametros.opciones])
  have hp := h 'p' (Decimal.print q.ltmProtocol) (by simp [Parametros.opciones])
  have hi := h 'i' q.interfaz (by simp [Parametros.opciones])
  have hn := h 'n' (Decimal.print q.numBufPkts) (by simp [Parametros.opciones])
  unfold Parametros.tras
  rw [hs, he, hp, hi, hn]
  simp only [Option.map_some, Option.getD_some, id, atoi_print hq.pe, atoi_print hq.ltmProtocol,
    atoi_print hq.numBufPkts]

/-- Every legal choice of parameters can be given, its options in any order, with other words between
them, and each argument in the word of its option or in the next. -/
theorem reconstruye (hq : q.Legal) {ps : List Piece} (hps : ∀ p ∈ ps, p.Good opcion)
    (hperm : (ps.flatMap Piece.options).Perm q.opciones) (q₀ : Parametros) :
    procesaArgumentos (ps.flatMap Piece.words) q₀ = some q := by
  rw [procesaArgumentos_iff, options_pieces (by decide) hps]
  exact ⟨fun x hx => cabe_opciones hq x (hperm.mem_iff.mp hx), (tras_opciones hq _ hperm).symm⟩

/-- `ltmd -n 7 x -i lo -p233 -e 5 -sf` -/
def piezas : List Piece :=
  [.apart [] 'n' ['7'], .skipped ['x'], .apart [] 'i' ['l', 'o'], .joined [] 'p' ['2', '3', '3'],
    .apart [] 'e' ['5'], .joined [] 's' ['f']]

theorem reconstruye_piezas : procesaArgumentos (piezas.flatMap Piece.words) parametrosIniciales =
    some ⟨['f'], 5, 233, ['l', 'o'], 7⟩ :=
  reconstruye ⟨by decide, by decide, by decide, by decide, by decide⟩ (by decide) (by decide) _

/-! ## The protocol -/

theorem ltmProtocol_tras (h : procesaArgumentos argv q = some q') :
    q'.ltmProtocol = ((last 'p' (options opcion none argv)).map atoi).getD 233 := by
  rw [(procesaArgumentos_iff.mp h).2]
  rfl

/-- `ltmd` comes back from the opening of its network, in success or in error, just when the program
that opens the socket works and the last `-p`, if there is one, is a number from 140 to 252. -/
theorem vuelve_iff (h : procesaArgumentos argv q = some q') (so : LlamadasRed) :
    (∃ r, (iniciaInterfazRed so ⟨String.ofList q'.interfaz, 0, q'.ltmProtocol⟩).1 = .retorna r) ↔
      so.fd.fd0 < 10000000 ∧ so.fd.Abre ∧
        ∀ t, last 'p' (options opcion none argv) = some t → 140 ≤ atoi t ∧ atoi t ≤ 252 := by
  have hp : (140 ≤ q'.ltmProtocol ∧ q'.ltmProtocol ≤ 252) ↔
      ∀ t, last 'p' (options opcion none argv) = some t → 140 ≤ atoi t ∧ atoi t ≤ 252 := by
    rw [ltmProtocol_tras h]
    cases last 'p' (options opcion none argv) with
    | none => exact iff_of_true (by decide) (by simp)
    | some t => simp
  rw [← hp, iniciaInterfazRed_eq]
  dsimp only
  by_cases hdes : so.fd.fork = true ∧
    (10000000 ≤ so.fd.fd0 ∨ q'.ltmProtocol ≤ -1000000 ∨ 10000000 ≤ q'.ltmProtocol)
  · rw [if_pos hdes]
    exact iff_of_false (by simp) fun hc => by omega
  · rw [if_neg hdes]
    by_cases habre : 140 ≤ q'.ltmProtocol ∧ q'.ltmProtocol ≤ 252 ∧ so.fd.Abre
    · rw [if_pos habre]
      have hfd0 : so.fd.fd0 < 10000000 := by
        by_contra hle
        exact hdes ⟨habre.2.2.fork, Or.inl (Nat.le_of_not_lt hle)⟩
      refine iff_of_true ?_ ⟨hfd0, habre.2.2, habre.1, habre.2.1⟩
      split
      · exact ⟨_, rfl⟩
      · exact ⟨_, rfl⟩
    · rw [if_neg habre]
      exact iff_of_false (by simp) fun hc => habre ⟨hc.2.2.1, hc.2.2.2, hc.2.1⟩

/-- With `-p 139` the daemon never comes back. -/
theorem vuelve_139 : ∃ q, procesaArgumentos [['-', 'p'], ['1', '3', '9']] parametrosIniciales = some q ∧
    ¬∃ r, (iniciaInterfazRed (soRed 7) ⟨String.ofList q.interfaz, 0, q.ltmProtocol⟩).1 = .retorna r := by
  refine ⟨⟨parametrosIniciales.dirProto, 0, 139, ['e', 't', 'h', '0'], 100⟩, by decide +kernel, ?_⟩
  rw [vuelve_iff (by decide +kernel : procesaArgumentos [['-', 'p'], ['1', '3', '9']] parametrosIniciales =
    some ⟨parametrosIniciales.dirProto, 0, 139, ['e', 't', 'h', '0'], 100⟩) (soRed 7)]
  intro hc
  exact absurd (hc.2.2 ['1', '3', '9'] (by decide +kernel)) (by decide +kernel)

end Ltm.Daemon
