import Ltm.Nodo.Maquina
import Ltm.Kernel.Tabla

/-! # The calls of a host, before and after a step

A step appends a call to the list, replaces one, or notes an answer. What a call has on record
(`ficha`) changes only when it returns, and what it waits with (`pendiente`) only by its own steps.
-/

namespace Ltm.Nodo
open Kernel
set_option autoImplicit false
set_option maxHeartbeats 250000

section Listas
variable {α : Type} {l : List α} {a b c : α} {h j : ℕ}

theorem getElem?_concat_iff : (l ++ [a])[h]? = some b ↔ l[h]? = some b ∨ h = l.length ∧ b = a := by
  by_cases hlt : h < l.length
  · rw [List.getElem?_append_left hlt]
    exact ⟨Or.inl, fun e => e.resolve_right fun e' => by omega⟩
  · have hnone : l[h]? = none := List.getElem?_eq_none (by omega)
    by_cases heq : h = l.length
    · subst heq
      simp [eq_comm]
    · have hnone' : (l ++ [a])[h]? = none := List.getElem?_eq_none (by simp; omega)
      simp [hnone, hnone', heq]

theorem getElem?_concat_of_ne (hj : j ≠ l.length) : (l ++ [a])[j]? = l[j]? := by
  by_cases hlt : j < l.length
  · exact List.getElem?_append_left hlt
  · rw [List.getElem?_eq_none (by simp; omega), List.getElem?_eq_none (by omega)]

theorem ne_length_of_getElem? (hj : l[j]? = some b) : j ≠ l.length := by
  obtain ⟨hlt, -⟩ := List.getElem?_eq_some_iff.mp hj
  omega

theorem getElem?_set_iff (hc : l[h]? = some c) :
    (l.set h a)[j]? = some b ↔ j = h ∧ b = a ∨ j ≠ h ∧ l[j]? = some b := by
  obtain ⟨hlt, -⟩ := List.getElem?_eq_some_iff.mp hc
  by_cases hj : j = h
  · subst hj
    simp [List.getElem?_set_self hlt, eq_comm]
  · rw [List.getElem?_set_ne (Ne.symm hj)]
    simp [hj]

end Listas

/-! ## Records and waits -/

def Fase.pendiente : Fase → Option Local
  | .espera _ l => some l
  | .sale l => some l
  | .fin _ => none

def Estado.ficha (s : Estado) (h : ℕ) : Option Ficha := s.hilos[h]?.map Hilo.ficha

/-- What the call `h` still needs, unless it has returned. -/
def Estado.pendiente (s : Estado) (h : ℕ) : Option Local :=
  s.hilos[h]?.bind fun hilo => hilo.fase.pendiente

/-- A CC comes with the call whose CR it answers, and is the first that does. -/
def Debida (s : Estado) (p : Tpdu) (para : Option ℕ) : Prop :=
  p.cabecera.tipo = tipoCC → ∃ h, h ∈ para ∧ ∃ hilo, hilo ∈ s.hilos[h]? ∧
    hilo.respuesta = none ∧ ∃ b, b ∈ hilo.ficha.cr ∧ b.pkt.cabecera.idLocal = p.cabecera.idDestino

instance (s : Estado) (p : Tpdu) (para : Option ℕ) : Decidable (Debida s p para) :=
  inferInstanceAs (Decidable (_ → _))

/-- The calls that `num_CXs` counts. -/
def Estado.contados (s : Estado) : Finset ℕ :=
  (Finset.range s.hilos.length).filter fun h => ∃ f ∈ s.ficha h, f.cuenta = true

section Vistas
variable {s s' : Estado} {h j : ℕ} {hilo hilo' : Hilo} {f : Ficha} {l : Local}

theorem ficha_of_hilo (hh : s.hilos[h]? = some hilo) : s.ficha h = some hilo.ficha := by
  rw [Estado.ficha, hh]
  rfl

theorem pendiente_of_hilo (hh : s.hilos[h]? = some hilo) : s.pendiente h = hilo.fase.pendiente := by
  rw [Estado.pendiente, hh]
  rfl

theorem lt_of_ficha (hf : s.ficha h = some f) : h < s.hilos.length := by
  obtain ⟨hilo, hh, -⟩ := Option.map_eq_some_iff.mp hf
  exact (List.getElem?_eq_some_iff.mp hh).1

theorem mem_contados : h ∈ s.contados ↔ ∃ f, s.ficha h = some f ∧ f.cuenta = true := by
  simp only [Estado.contados, Finset.mem_filter, Finset.mem_range, Option.mem_def]
  exact ⟨And.right, fun ⟨f, hf, hc⟩ => ⟨lt_of_ficha hf, f, hf, hc⟩⟩

theorem ficha_concat (hs : s'.hilos = s.hilos ++ [hilo]) : s'.ficha j = some f ↔
    s.ficha j = some f ∨ j = s.hilos.length ∧ f = hilo.ficha := by
  simp only [Estado.ficha, Option.map_eq_some_iff, hs, getElem?_concat_iff]
  constructor
  · rintro ⟨a, ha | ⟨rfl, rfl⟩, rfl⟩
    · exact Or.inl ⟨a, ha, rfl⟩
    · exact Or.inr ⟨rfl, rfl⟩
  · rintro (⟨a, ha, rfl⟩ | ⟨rfl, rfl⟩)
    · exact ⟨a, Or.inl ha, rfl⟩
    · exact ⟨hilo, Or.inr ⟨rfl, rfl⟩, rfl⟩

theorem pendiente_concat (hs : s'.hilos = s.hilos ++ [hilo]) : s'.pendiente j = some l ↔
    s.pendiente j = some l ∨ j = s.hilos.length ∧ hilo.fase.pendiente = some l := by
  simp only [Estado.pendiente, Option.bind_eq_some_iff, hs, getElem?_concat_iff]
  constructor
  · rintro ⟨a, ha | ⟨rfl, rfl⟩, hl⟩
    · exact Or.inl ⟨a, ha, hl⟩
    · exact Or.inr ⟨rfl, hl⟩
  · rintro (⟨a, ha, hl⟩ | ⟨rfl, hl⟩)
    · exact ⟨a, Or.inl ha, hl⟩
    · exact ⟨hilo, Or.inr ⟨rfl, rfl⟩, hl⟩

theorem ficha_set (hh : s.hilos[h]? = some hilo) (hs : s'.hilos = s.hilos.set h hilo') :
    s'.ficha j = some f ↔ j = h ∧ f = hilo'.ficha ∨ j ≠ h ∧ s.ficha j = some f := by
  simp only [Estado.ficha, Option.map_eq_some_iff, hs, getElem?_set_iff hh]
  constructor
  · rintro ⟨a, ⟨rfl, rfl⟩ | ⟨hj, ha⟩, rfl⟩
    · exact Or.inl ⟨rfl, rfl⟩
    · exact Or.inr ⟨hj, a, ha, rfl⟩
  · rintro (⟨rfl, rfl⟩ | ⟨hj, a, ha, rfl⟩)
    · exact ⟨hilo', Or.inl ⟨rfl, rfl⟩, rfl⟩
    · exact ⟨a, Or.inr ⟨hj, ha⟩, rfl⟩

theorem pendiente_set (hh : s.hilos[h]? = some hilo) (hs : s'.hilos = s.hilos.set h hilo') :
    s'.pendiente j = some l ↔
      j = h ∧ hilo'.fase.pendiente = some l ∨ j ≠ h ∧ s.pendiente j = some l := by
  simp only [Estado.pendiente, Option.bind_eq_some_iff, hs, getElem?_set_iff hh]
  constructor
  · rintro ⟨a, ⟨rfl, rfl⟩ | ⟨hj, ha⟩, hl⟩
    · exact Or.inl ⟨rfl, hl⟩
    · exact Or.inr ⟨hj, a, ha, hl⟩
  · rintro (⟨rfl, hl⟩ | ⟨hj, a, ha, hl⟩)
    · exact ⟨hilo', Or.inl ⟨rfl, rfl⟩, hl⟩
    · exact ⟨a, Or.inr ⟨hj, ha⟩, hl⟩

theorem ficha_set_self (hh : s.hilos[h]? = some hilo) (hs : s'.hilos = s.hilos.set h hilo')
    (he : hilo'.ficha = hilo.ficha) (j : ℕ) : s'.ficha j = s.ficha j := by
  by_cases hj : j = h
  · subst hj
    rw [ficha_of_hilo hh, ← he]
    exact (ficha_set hh hs).mpr (Or.inl ⟨rfl, rfl⟩)
  · unfold Estado.ficha
    rw [hs, List.getElem?_set_ne (Ne.symm hj)]

theorem pendiente_set_self (hh : s.hilos[h]? = some hilo) (hs : s'.hilos = s.hilos.set h hilo')
    (he : hilo'.fase.pendiente = hilo.fase.pendiente) (j : ℕ) : s'.pendiente j = s.pendiente j := by
  by_cases hj : j = h
  · subst hj
    obtain ⟨hlt, -⟩ := List.getElem?_eq_some_iff.mp hh
    rw [pendiente_of_hilo hh, ← he]
    exact pendiente_of_hilo (by rw [hs, List.getElem?_set_self hlt])
  · unfold Estado.pendiente
    rw [hs, List.getElem?_set_ne (Ne.symm hj)]

theorem despertado_of_ne (hj : h ≠ j) : (s.despertado h hilo l).hilos[j]? = s.hilos[j]? :=
  List.getElem?_set_ne hj

theorem ficha_despertado (hh : s.hilos[h]? = some hilo) (j : ℕ) :
    (s.despertado h hilo l).ficha j = s.ficha j := by
  have hs : (s.despertado h hilo l).hilos = s.hilos.set h { hilo with fase := .sale l } := rfl
  exact ficha_set_self hh hs rfl j

theorem pendiente_despertado {i : Int} (hh : s.hilos[h]? = some hilo) (hf : hilo.fase = .espera i l)
    (j : ℕ) : (s.despertado h hilo l).pendiente j = s.pendiente j := by
  have hs : (s.despertado h hilo l).hilos = s.hilos.set h { hilo with fase := .sale l } := rfl
  exact pendiente_set_self hh hs (by rw [hf]; rfl) j

theorem ficha_cita {h' : ℕ} {l' : Local} (hne : h ≠ h') (hh : s.hilos[h]? = some hilo)
    (hh' : s.hilos[h']? = some hilo') (j : ℕ) :
    ((s.despertado h hilo l).despertado h' hilo' l').ficha j = s.ficha j := by
  have hsigue : (s.despertado h hilo l).hilos[h']? = some hilo' := (despertado_of_ne hne).trans hh'
  rw [ficha_despertado hsigue, ficha_despertado hh]

theorem pendiente_cita {h' : ℕ} {i i' : Int} {l' : Local} (hne : h ≠ h')
    (hh : s.hilos[h]? = some hilo) (hf : hilo.fase = .espera i l) (hh' : s.hilos[h']? = some hilo')
    (hf' : hilo'.fase = .espera i' l') (j : ℕ) :
    ((s.despertado h hilo l).despertado h' hilo' l').pendiente j = s.pendiente j := by
  have hsigue : (s.despertado h hilo l).hilos[h']? = some hilo' := (despertado_of_ne hne).trans hh'
  rw [pendiente_despertado hsigue hf', pendiente_despertado hh hf]

theorem anotaRespuesta_getElem? (v : Int) (para : Option ℕ) (hilos : List Hilo) (j : ℕ) :
    (anotaRespuesta v para hilos)[j]? = hilos[j]?.map fun hilo =>
      if para = some j then { hilo with respuesta := some v } else hilo := by
  cases para with
  | none => simp [anotaRespuesta]
  | some h =>
      rw [anotaRespuesta, List.getElem?_modify]
      by_cases hj : h = j
      · simp [hj]
      · simp [hj]

theorem ficha_trasRecibir (p : Tpdu) (para : Option ℕ) (m : Mundo) (j : ℕ) :
    (s.trasRecibir p para m).ficha j = s.ficha j := by
  unfold Estado.ficha Estado.trasRecibir
  rw [anotaRespuesta_getElem?, Option.map_map]
  congr 1
  funext hilo
  simp only [Function.comp]
  split <;> rfl

theorem pendiente_trasRecibir (p : Tpdu) (para : Option ℕ) (m : Mundo) (j : ℕ) :
    (s.trasRecibir p para m).pendiente j = s.pendiente j := by
  unfold Estado.pendiente Estado.trasRecibir
  rw [anotaRespuesta_getElem?]
  cases s.hilos[j]? with
  | none => rfl
  | some hilo =>
      simp only [Option.map_some, Option.bind_some]
      split <;> rfl

theorem contados_congr (hf : ∀ j, s'.ficha j = s.ficha j) : s'.contados = s.contados := by
  ext j
  rw [mem_contados, mem_contados, hf]

end Vistas

/-! ## Where a section leaves the kernel -/

/-- The call made in this step has returned `v`. -/
def Retorna (s s' : Estado) (v : Int) : Prop :=
  s'.hilos[s.hilos.length]?.map Hilo.fase = some (.fin v)

instance (s s' : Estado) (v : Int) : Decidable (Retorna s s' v) :=
  inferInstanceAs (Decidable (_ = _))

theorem paso_llama {s s' : Estado} {c : Llamada} (h : paso s (.llama c) = some s') :
    s'.kernel = (c.empieza ⟨s.kernel, []⟩).2.kernel ∧ (c.empieza ⟨s.kernel, []⟩).1 ≠ .busca ∧
      ∀ v, Retorna s s' v ↔ (c.empieza ⟨s.kernel, []⟩).1 = .retorna v := by
  obtain ⟨-, h⟩ := trasLlamar_of_paso h
  generalize c.empieza ⟨s.kernel, []⟩ = r at h
  obtain ⟨paso, m⟩ := r
  cases paso with
  | busca => exact absurd h (by simp [Estado.trasLlamar])
  | retorna v =>
      obtain rfl := Option.some.inj h
      refine ⟨rfl, by simp, fun v' => ?_⟩
      simp [Retorna, hiloTerminado]
  | duerme i l =>
      obtain rfl := Option.some.inj h
      refine ⟨rfl, by simp, fun v' => ?_⟩
      simp [Retorna, hiloNuevo]

theorem paso_sigue {s s' : Estado} {h : ℕ} {hilo : Hilo} {l : Local} (hh : s.hilos[h]? = some hilo)
    (hf : hilo.fase = .sale l) (hp : paso s (.sigue h) = some s') :
    s'.kernel = (l.sigue ⟨s.kernel, []⟩).2.kernel := by
  obtain ⟨hilo', l', hh', hf', -, hp⟩ := trasSeguir_of_paso hp
  obtain rfl := Option.some.inj (hh.symm.trans hh')
  obtain rfl := Fase.sale.inj (hf.symm.trans hf')
  generalize l.sigue ⟨s.kernel, []⟩ = r at hp
  obtain ⟨paso, m⟩ := r
  cases paso with
  | busca => exact absurd hp (by simp [Estado.trasSeguir])
  | retorna v =>
      obtain rfl := Option.some.inj hp
      rfl
  | duerme i l' =>
      obtain rfl := Option.some.inj hp
      rfl

/-! ## Where the daemon waits after a packet -/

theorem barreraDe_trazaCC (k : KernelShm) (h : CabTcp) : barreraDe (trazaCC k h) = some h.idDestino := by
  unfold trazaCC barreraDe
  simp only [List.filterMap_append, List.filterMap_cons, List.filterMap_nil, List.getLast?_append,
    List.getLast?_singleton, Option.some_or]

theorem barreraDe_trazaCR (k : KernelShm) (ipRemota : InAddr) (p : Tpdu) :
    barreraDe (trazaCR k ipRemota p) = some (asignConexionCR p k) := rfl

end Ltm.Nodo
