import Ltm.Nodo.Hilos

/-! # The calls after a step

What a step makes of the calls of a host. Most steps leave of each call what counts: which it is, what it
waits with, and its result (`Vista`). A call that begins adds itself, and one that goes on may change.
-/

namespace Ltm.Nodo
open Kernel
set_option autoImplicit false
set_option maxHeartbeats 250000

def fasePaso : Paso → Option Fase
  | .retorna v => some (.fin v)
  | .duerme i l => some (.espera i l)
  | .busca => none

/-- The step that led to `s'` has run a section that ended in `r`, and left its call as `hilo`. -/
structure Corre (s' : Estado) (r : Paso × Mundo) (hilo : Hilo) : Prop where
  kernel : s'.kernel = r.2.kernel
  ultima : s'.ultima = r.2.traza
  fase : fasePaso r.1 = some hilo.fase

variable {s s' : Estado} {c : Llamada} {e : Suceso} {h : ℕ} {hilo hilo' : Hilo} {l : Local} {i : Int}

theorem llama_corre (hp : paso s (.llama c) = some s') : ∃ hilo, s'.hilos = s.hilos ++ [hilo] ∧
    hilo.ficha.llamada = c ∧ Corre s' (c.empieza ⟨s.kernel, []⟩) hilo := by
  obtain ⟨-, hp⟩ := trasLlamar_of_paso hp
  generalize c.empieza ⟨s.kernel, []⟩ = r at hp
  obtain ⟨paso, m⟩ := r
  cases paso with
  | busca => exact absurd hp (by simp [Estado.trasLlamar])
  | retorna v =>
      obtain rfl := Option.some.inj hp
      exact ⟨_, rfl, rfl, rfl, rfl, rfl⟩
  | duerme i l =>
      obtain rfl := Option.some.inj hp
      exact ⟨_, rfl, rfl, rfl, rfl, rfl⟩

theorem sigue_corre (hp : paso s (.sigue h) = some s') : ∃ hilo l, s.hilos[h]? = some hilo ∧
    hilo.fase = .sale l ∧ ∃ hilo', s'.hilos = s.hilos.set h hilo' ∧
      hilo'.ficha.llamada = hilo.ficha.llamada ∧ Corre s' (l.sigue ⟨s.kernel, []⟩) hilo' := by
  obtain ⟨hilo, l, hh, hf, -, hp⟩ := trasSeguir_of_paso hp
  refine ⟨hilo, l, hh, hf, ?_⟩
  generalize l.sigue ⟨s.kernel, []⟩ = r at hp ⊢
  obtain ⟨paso, m⟩ := r
  cases paso with
  | busca => exact absurd hp (by simp [Estado.trasSeguir])
  | retorna v =>
      obtain rfl := Option.some.inj hp
      exact ⟨_, rfl, rfl, rfl, rfl, rfl⟩
  | duerme i l' =>
      obtain rfl := Option.some.inj hp
      exact ⟨_, rfl, rfl, rfl, rfl, rfl⟩

/-! ## What counts of a call -/

def Fase.resultado : Fase → Option Int
  | .fin v => some v
  | _ => none

/-- What counts of a call: which it is, what it waits with, and its result. -/
structure Vista where
  llamada : Llamada
  pendiente : Option Local
  resultado : Option Int

def Hilo.vista (hilo : Hilo) : Vista := ⟨hilo.ficha.llamada, hilo.fase.pendiente, hilo.fase.resultado⟩

def Estado.vistas (s : Estado) : List Vista := s.hilos.map Hilo.vista

theorem map_set_of_eq {α β : Type} {f : α → β} {xs : List α} {a b : α} (hh : xs[h]? = some a)
    (hf : f b = f a) : (xs.set h b).map f = xs.map f := by
  apply List.ext_getElem?
  intro j
  rw [List.getElem?_map, List.getElem?_map]
  by_cases hj : h = j
  · subst hj
    rw [List.getElem?_set_self (List.getElem?_eq_some_iff.mp hh).1, hh]
    exact congrArg some hf
  · rw [List.getElem?_set_ne hj]

theorem vistas_despertado (hh : s.hilos[h]? = some hilo) (hf : hilo.fase = .espera i l) :
    (s.despertado h hilo l).vistas = s.vistas := by
  refine map_set_of_eq hh ?_
  unfold Hilo.vista
  rw [hf]
  rfl

theorem vistas_cita {h' : ℕ} {i' : Int} {l' : Local} (hne : h ≠ h') (hh : s.hilos[h]? = some hilo)
    (hf : hilo.fase = .espera i l) (hh' : s.hilos[h']? = some hilo') (hf' : hilo'.fase = .espera i' l') :
    ((s.despertado h hilo l).despertado h' hilo' l').vistas = s.vistas := by
  have hotro : (s.despertado h hilo l).hilos[h']? = some hilo' := (despertado_of_ne hne).trans hh'
  rw [vistas_despertado hotro hf', vistas_despertado hh hf]

theorem vistas_trasRecibir (p : Tpdu) (para : Option ℕ) (m : Mundo) :
    (s.trasRecibir p para m).vistas = s.vistas := by
  apply List.ext_getElem?
  intro j
  have hj : (s.trasRecibir p para m).hilos[j]? = _ := anotaRespuesta_getElem? _ _ _ j
  rw [Estado.vistas, Estado.vistas, List.getElem?_map, List.getElem?_map, hj, Option.map_map]
  refine congrFun (congrArg Option.map (funext fun hilo => ?_)) _
  show (if _ then _ else hilo : Hilo).vista = hilo.vista
  split <;> rfl

/-! ## What all calls keep -/

section
variable {pa : Paso} {f : Fase} {v : Int}

theorem fin_of_fasePaso (hf : fasePaso pa = some f) (hv : f.resultado = some v) : pa = .retorna v := by
  cases pa with
  | retorna r =>
      obtain rfl := Option.some.inj hf
      exact congrArg Paso.retorna (Option.some.inj hv)
  | duerme i l =>
      obtain rfl := Option.some.inj hf
      exact absurd hv (by simp [Fase.resultado])
  | busca => exact absurd hf (by simp [fasePaso])

theorem duerme_of_fasePaso (hf : fasePaso pa = some f) (hl : f.pendiente = some l) :
    ∃ i, pa = .duerme i l := by
  cases pa with
  | retorna r =>
      obtain rfl := Option.some.inj hf
      exact absurd hl (by simp [Fase.pendiente])
  | duerme i l' =>
      obtain rfl := Option.some.inj hf
      exact ⟨i, congrArg (Paso.duerme i) (Option.some.inj hl)⟩
  | busca => exact absurd hf (by simp [fasePaso])

end

theorem vistas_paso (h : paso s e = some s') (hl : ∀ c, e ≠ .llama c) (hs : ∀ j, e ≠ .sigue j) :
    s'.vistas = s.vistas := by
  cases transita_of_paso h with
  | termina | empieza => exact absurd rfl (hl _)
  | acaba | vuelve => exact absurd rfl (hs _)
  | recibe => exact vistas_trasRecibir _ _ _
  | citaDaemon hh hf hd => exact vistas_despertado hh hf
  | cita hne hh hf hh' hf' => exact vistas_cita hne hh hf hh' hf'
  | despierta hh hf => exact vistas_despertado hh hf
  | suelta => rfl

theorem forall_vistas_concat {P : Vista → Prop} (hi : ∀ x ∈ s.vistas, P x)
    (hs : s'.hilos = s.hilos ++ [hilo]) (hnueva : P hilo.vista) : ∀ x ∈ s'.vistas, P x := by
  intro x hx
  rw [Estado.vistas, hs, List.map_append] at hx
  rcases List.mem_append.mp hx with hx | hx
  · exact hi x hx
  · rwa [List.mem_singleton.mp hx]

theorem forall_vistas_set {P : Vista → Prop} (hi : ∀ x ∈ s.vistas, P x)
    (hs : s'.hilos = s.hilos.set h hilo') (hnueva : P hilo'.vista) : ∀ x ∈ s'.vistas, P x := by
  intro x hx
  rw [Estado.vistas, hs] at hx
  obtain ⟨y, hy, rfl⟩ := List.mem_map.mp hx
  rcases List.mem_or_eq_of_mem_set hy with hy | rfl
  · exact hi _ (List.mem_map_of_mem hy)
  · exact hnueva

/-- What a call has at its first step, and keeps when it goes on, all calls have. -/
theorem forall_vistas_paso {P : Vista → Prop} (hi : ∀ x ∈ s.vistas, P x)
    (h : paso s e = some s')
    (hllama : ∀ c hilo, e = .llama c → hilo.ficha.llamada = c →
      Corre s' (c.empieza ⟨s.kernel, []⟩) hilo → P hilo.vista)
    (hsigue : ∀ h hilo l hilo', e = .sigue h → s.hilos[h]? = some hilo → hilo.fase = .sale l →
      P hilo.vista → hilo'.ficha.llamada = hilo.ficha.llamada →
        Corre s' (l.sigue ⟨s.kernel, []⟩) hilo' → P hilo'.vista) : ∀ x ∈ s'.vistas, P x := by
  by_cases hl : ∃ c, e = .llama c
  · obtain ⟨c, rfl⟩ := hl
    obtain ⟨hilo, hs, hc, hcorre⟩ := llama_corre h
    exact forall_vistas_concat hi hs (hllama c hilo rfl hc hcorre)
  by_cases hs : ∃ j, e = .sigue j
  · obtain ⟨j, rfl⟩ := hs
    obtain ⟨hilo, l, hh, hf, hilo', hs, hc, hcorre⟩ := sigue_corre h
    have hvieja := hi _ (List.mem_map_of_mem (List.mem_of_getElem? hh))
    exact forall_vistas_set hi hs (hsigue j hilo l hilo' rfl hh hf hvieja hc hcorre)
  rw [vistas_paso h (fun c e => hl ⟨c, e⟩) fun j e => hs ⟨j, e⟩]
  exact hi

end Ltm.Nodo
