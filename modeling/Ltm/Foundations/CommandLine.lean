import Mathlib.Data.List.Basic
import Mathlib.Data.List.Nodup

/-! # Command lines

`options o none words` are the options of a command line as `getopt` finds them: letters behind a dash,
several in one word, the last of them perhaps with an argument, in the rest of the word or in the next
one. An option that takes no argument comes with an empty one. Other words are skipped, and so are
letters that are no options; a word `--` ends the search.
-/

namespace Ltm.CommandLine
set_option autoImplicit false
set_option maxHeartbeats 250000

abbrev Word := List Char

/-- What an option takes. -/
inductive Kind
  | nothing
  | argument
  deriving DecidableEq

/-- The options among the letters of a word, and the one that awaits its argument. -/
def cluster (o : Char → Option Kind) : Word → List (Char × Word) × Option Char
  | [] => ([], none)
  | c :: w =>
    match o c with
    | none => cluster o w
    | some .nothing => ((c, []) :: (cluster o w).1, (cluster o w).2)
    | some .argument => if w = [] then ([], some c) else ([(c, w)], none)

/-- The options of one word, where no argument is awaited; `none` for the word that ends the search. -/
def element (o : Char → Option Kind) : Word → Option (List (Char × Word) × Option Char)
  | a :: c :: w =>
    if a = '-' then (if c = '-' ∧ w = [] then none else some (cluster o (c :: w))) else some ([], none)
  | _ => some ([], none)

/-- The options of a command line; first, the letter that awaits its argument. -/
def options (o : Char → Option Kind) : Option Char → List Word → List (Char × Word)
  | _, [] => []
  | some c, w :: ws => (c, w) :: options o none ws
  | none, w :: ws =>
    match element o w with
    | none => []
    | some (l, awaited) => l ++ options o awaited ws

/-- The last argument of an option. -/
def last (c : Char) (l : List (Char × Word)) : Option Word := l.reverse.lookup c

/-! ## Lists of pairs -/

theorem lookup_eq_some_iff {K V : Type} [DecidableEq K] {l : List (K × V)} (hl : (l.map Prod.fst).Nodup)
    {k : K} {v : V} : l.lookup k = some v ↔ (k, v) ∈ l := by
  induction l with
  | nil => simp
  | cons x l ih =>
      obtain ⟨k', v'⟩ := x
      rw [List.map_cons, List.nodup_cons] at hl
      by_cases h : k = k'
      · subst h
        have hno : ∀ w, (k, w) ∉ l := fun w hw => hl.1 (List.mem_map.mpr ⟨(k, w), hw, rfl⟩)
        simp [hno, eq_comm]
      · simp [List.lookup_cons, beq_eq_false_iff_ne.mpr h, ih hl.2, h]

/-! ## Writing a command line -/

/-- A way to write some options: `flags` take no argument, and may stand before one that does. -/
inductive Piece
  | skipped (w : Word)
  | flags (cs : List Char)
  /-- the argument is the next word -/
  | apart (cs : List Char) (c : Char) (arg : Word)
  /-- the argument is the rest of the word -/
  | joined (cs : List Char) (c : Char) (arg : Word)

def Piece.words : Piece → List Word
  | .skipped w => [w]
  | .flags cs => ['-' :: cs]
  | .apart cs c arg => ['-' :: (cs ++ [c]), arg]
  | .joined cs c arg => ['-' :: (cs ++ c :: arg)]

def Piece.options : Piece → List (Char × Word)
  | .skipped _ => []
  | .flags cs => cs.map fun c => (c, [])
  | .apart cs c arg => (cs.map fun c => (c, [])) ++ [(c, arg)]
  | .joined cs c arg => (cs.map fun c => (c, [])) ++ [(c, arg)]

def Flags (o : Char → Option Kind) (cs : List Char) : Prop := ∀ c ∈ cs, o c = some .nothing

instance (o : Char → Option Kind) (cs : List Char) : Decidable (Flags o cs) :=
  List.decidableBAll (fun c => o c = some .nothing) cs

def Piece.Good (o : Char → Option Kind) : Piece → Prop
  | .skipped w => element o w = some ([], none)
  | .flags cs => Flags o cs ∧ cs ≠ []
  | .apart cs c _ => Flags o cs ∧ o c = some .argument
  | .joined cs c arg => Flags o cs ∧ o c = some .argument ∧ arg ≠ []

instance (o : Char → Option Kind) : (p : Piece) → Decidable (p.Good o)
  | .skipped _ => inferInstanceAs (Decidable (_ = _))
  | .flags _ => inferInstanceAs (Decidable (_ ∧ _))
  | .apart _ _ _ => inferInstanceAs (Decidable (_ ∧ _))
  | .joined _ _ _ => inferInstanceAs (Decidable (_ ∧ _ ∧ _))

variable {o : Char → Option Kind} {c d : Char} {w arg : Word} {cs : List Char} {p : Piece}
  {l l' : List (Char × Word)}

theorem cluster_append (hcs : Flags o cs) (w : Word) :
    cluster o (cs ++ w) = ((cs.map fun c => (c, [])) ++ (cluster o w).1, (cluster o w).2) := by
  induction cs with
  | nil => rfl
  | cons c cs ih =>
      have hc : o c = some .nothing := hcs c List.mem_cons_self
      have hrest := ih fun d hd => hcs d (List.mem_cons_of_mem c hd)
      rw [List.cons_append, cluster, hc]
      dsimp only
      rw [hrest]
      rfl

theorem cluster_awaits (hc : o c = some .argument) : cluster o [c] = ([], some c) := by
  rw [cluster, hc]
  rfl

theorem cluster_joined (hc : o c = some .argument) (harg : arg ≠ []) :
    cluster o (c :: arg) = ([(c, arg)], none) := by
  rw [cluster, hc]
  exact if_neg harg

/-- A word that begins with a dash and an option. -/
theorem element_dash (ho : o '-' = none) (hw : ∃ k, w.head?.bind o = some k) :
    element o ('-' :: w) = some (cluster o w) := by
  obtain ⟨k, hk⟩ := hw
  cases w with
  | nil => exact absurd hk (by simp)
  | cons c w =>
      have hdash : c ≠ '-' := by
        rintro rfl
        rw [List.head?_cons, Option.bind_some, ho] at hk
        exact absurd hk (by simp)
      rw [element, if_pos rfl, if_neg fun h => hdash h.1]

theorem head_flags (hcs : Flags o cs) (hw : ∃ k, w.head?.bind o = some k) :
    ∃ k, (cs ++ w).head?.bind o = some k := by
  cases cs with
  | nil => exact hw
  | cons c cs => exact ⟨.nothing, hcs c List.mem_cons_self⟩

theorem options_words (ho : o '-' = none) (hp : p.Good o) (ws : List Word) :
    options o none (p.words ++ ws) = p.options ++ options o none ws := by
  cases p with
  | skipped w =>
      have hw : element o w = some ([], none) := hp
      simp only [Piece.words, Piece.options, List.cons_append, List.nil_append, options, hw]
  | flags cs =>
      obtain ⟨hcs, hne⟩ := hp
      have hhead : ∃ k, cs.head?.bind o = some k := by
        obtain ⟨c, cs, rfl⟩ := List.exists_cons_of_ne_nil hne
        exact ⟨.nothing, hcs c List.mem_cons_self⟩
      have hcluster := cluster_append hcs []
      rw [List.append_nil, cluster, List.append_nil] at hcluster
      simp only [Piece.words, Piece.options, List.cons_append, List.nil_append, options,
        element_dash ho hhead, hcluster]
  | apart cs c arg =>
      obtain ⟨hcs, hc⟩ := hp
      have hhead := head_flags hcs (w := [c]) ⟨_, hc⟩
      have hcluster := cluster_append hcs [c]
      rw [cluster_awaits hc, List.append_nil] at hcluster
      simp only [Piece.words, Piece.options, List.cons_append, List.nil_append, options,
        element_dash ho hhead, hcluster, List.append_assoc]
  | joined cs c arg =>
      obtain ⟨hcs, hc, harg⟩ := hp
      have hhead := head_flags hcs (w := c :: arg) ⟨_, hc⟩
      have hcluster := cluster_append hcs (c :: arg)
      rw [cluster_joined hc harg] at hcluster
      simp only [Piece.words, Piece.options, List.cons_append, List.nil_append, options,
        element_dash ho hhead, hcluster]

/-- A command line that is written piece by piece is read back. -/
theorem options_pieces (ho : o '-' = none) {ps : List Piece} (hps : ∀ p ∈ ps, p.Good o) :
    options o none (ps.flatMap Piece.words) = ps.flatMap Piece.options := by
  induction ps with
  | nil => rfl
  | cons p ps ih =>
      rw [List.flatMap_cons, options_words ho (hps p List.mem_cons_self),
        ih fun q hq => hps q (List.mem_cons_of_mem p hq), List.flatMap_cons]

/-! ## The last argument -/

/-- A variable that some options write ends with the last value written. -/
theorem foldl_write {A V : Type} (f : A → Option V) (l : List A) (v : V) :
    l.foldl (fun v x => (f x).getD v) v = (l.filterMap f).getLast?.getD v := by
  induction l generalizing v with
  | nil => rfl
  | cons x l ih =>
      rw [List.foldl_cons, ih, List.filterMap_cons]
      cases f x with
      | none => rfl
      | some w =>
          dsimp only [Option.getD_some]
          rw [List.getLast?_cons, Option.getD_some]

/-- Among options of which one writes, the order does not matter. -/
theorem getLast?_of_perm {A V : Type} {f : A → Option V} {l l' : List A} (h : l'.Perm l) {v : V}
    (hl : l.filterMap f = [v]) : (l'.filterMap f).getLast? = some v := by
  have hperm : (l'.filterMap f).Perm [v] := hl ▸ h.filterMap f
  rw [List.perm_singleton.mp hperm]
  rfl

theorem last_cons (x : Char × Word) : last c (x :: l) = (last c l).or ([x].lookup c) := by
  rw [last, List.reverse_cons, List.lookup_append]
  rfl

theorem getD_last_cons {α : Type} (f : Word → α) (a : α) (w : Word) :
    ((last c ((d, w) :: l)).map f).getD a = ((last c l).map f).getD (if c = d then f w else a) := by
  rw [last_cons]
  cases last c l with
  | some v => rfl
  | none =>
      by_cases h : c = d
      · simp [h]
      · simp [h, List.lookup_cons, beq_eq_false_iff_ne.mpr h]

/-- Among options that are given once each, the order does not matter. -/
theorem last_of_mem_perm (hl : (l.map Prod.fst).Nodup) (h : l'.Perm l) {w : Word} (hw : (c, w) ∈ l) :
    last c l' = some w := by
  have hrev : l'.reverse.Perm l := l'.reverse_perm.trans h
  have hnodup : (l'.reverse.map Prod.fst).Nodup := (hrev.map Prod.fst).nodup_iff.mpr hl
  exact (lookup_eq_some_iff hnodup).mpr (hrev.mem_iff.mpr hw)

end Ltm.CommandLine
