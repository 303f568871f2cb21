import Ltm.Foundations.Runs

/-! # Waiting for an event: `ltm_wait4event`

The daemon waits in `select` for a packet in its socket or a byte in the pipe `pfd`. The signal SIGUSR1
interrupts it: the handler `RI_daemon` writes a byte to the pipe, wherever the daemon is, so that no
interruption falls between a test and a wait. The state has the pipe, the socket and the place the
daemon is at; a step is one system call of the daemon, a signal or the arrival of a packet.
-/

namespace Ltm.Daemon
open Runs
set_option autoImplicit false
set_option maxHeartbeats 250000

/-- `evento`, what `ltm_wait4event` returns. -/
inductive Evento
  | timeOut
  | interrup
  | paquete
  deriving DecidableEq, Repr

/-! ## States -/

/-- The result of `select`: `0`, an error, or the descriptors left in `test_fds`. -/
inductive Seleccion
  | ninguno
  | eintr
  /-- another error, and `test_fds` as it was -/
  | error
  | listos (tuberia socket : Bool)
  deriving DecidableEq, Repr

/-- The call that the daemon makes next. -/
inductive Punto
  | bucle
  | select
  /-- `select` has returned, and `n` and `errno` are looked at -/
  | vuelto (r : Seleccion)
  /-- the `read` of the pipe that `r` has led to -/
  | lee (r : Seleccion)
  /-- `recibir_tpdu`, with `PAQUETE` returned -/
  | recibe
  deriving DecidableEq, Repr

/-- The page of a pipe of Linux, which has sixteen. -/
def pagina : ℕ := 4096

def capacidad : ℕ := 16 * pagina

/-- The size of `buf` in `ltm_wait4event`. -/
def tamBuf : ℕ := 100

structure Estado (P : Type*) where
  /-- the bytes unread in the pipe -/
  tuberia : ℕ
  /-- the bytes read of its first page, which is free again once it is read whole -/
  inicio : ℕ
  socket : List P
  punto : Punto
  /-- the daemon is in `RI_daemon`, whose `write` waits for room in the pipe -/
  atascado : Bool
  /-- record: the signals handled -/
  senales : ℕ
  /-- record: the bytes read from the pipe -/
  leidos : ℕ
  /-- record: the packets that have come to the socket -/
  llegados : List P
  /-- record: what the calls of `ltm_wait4event` have returned -/
  devueltos : List Evento
  /-- record: what each `recvfrom` has found in the socket -/
  recibidos : List (Option P)
  /-- record: there was a byte in the pipe before the last `select` returned -/
  avisado : Bool

inductive Suceso (P : Type*)
  /-- SIGUSR1, and `RI_daemon` -/
  | senal
  | llega (p : P)
  /-- the daemon goes on -/
  | sigue
  /-- `select` finds a descriptor ready -/
  | despierta
  /-- the time of `select` is over with no descriptor ready -/
  | vence
  /-- `select` fails, and not for a signal -/
  | falla

variable {P : Type*}

/-- `RI_daemon`: it ends a `select`, and it waits if the pages of the pipe are full. -/
def Estado.riDaemon (s : Estado P) : Estado P :=
  if s.inicio + s.tuberia < capacidad then
    { s with
      tuberia := s.tuberia + 1
      senales := s.senales + 1
      punto := if s.punto = .select then .vuelto .eintr else s.punto
      avisado := s.avisado || decide (s.punto = .select) }
  else { s with atascado := true, senales := s.senales + 1 }

def Estado.devuelve (s : Estado P) (v : Evento) (punto : Punto) : Estado P :=
  { s with punto := punto, devueltos := s.devueltos ++ [v] }

/-- `read(pfd[0], buf, 100)`, when there is a byte to read. -/
def Estado.leeTuberia (s : Estado P) : Estado P :=
  { s with
    tuberia := s.tuberia - min tamBuf s.tuberia
    inicio := if s.tuberia ≤ tamBuf then 0 else (s.inicio + tamBuf) % pagina
    leidos := s.leidos + min tamBuf s.tuberia }

/-- The daemon up to its next call. -/
def Estado.avanza (s : Estado P) : Option (Estado P) :=
  match s.punto with
  | .bucle => some { s with punto := .select, avisado := decide (0 < s.tuberia) }
  | .select => none
  | .vuelto .ninguno => some (s.devuelve .timeOut .bucle)
  | .vuelto .eintr => some { s with punto := .lee .eintr }
  | .vuelto .error => some { s with punto := .lee .error }
  | .vuelto (.listos true socket) => some { s with punto := .lee (.listos true socket) }
  | .vuelto (.listos false _) => some (s.devuelve .paquete .recibe)
  | .lee _ => if s.tuberia = 0 then none else some (s.leeTuberia.devuelve .interrup .bucle)
  | .recibe => some { s with
      punto := .bucle, socket := s.socket.tail, recibidos := s.recibidos ++ [s.socket.head?] }

def Estado.listo (s : Estado P) : Bool := decide (0 < s.tuberia) || !s.socket.isEmpty

/-- What the daemon and `select` do; the daemon stuck in its handler does nothing. -/
def Estado.pasoDaemon (s : Estado P) : Suceso P → Option (Estado P)
  | .senal => some s.riDaemon
  | .sigue => s.avanza
  | .despierta =>
    if s.punto = .select ∧ s.listo then
      some { s with punto := .vuelto (.listos (decide (0 < s.tuberia)) !s.socket.isEmpty) }
    else none
  | .vence => if s.punto = .select ∧ ¬s.listo then some { s with punto := .vuelto .ninguno } else none
  | .falla => if s.punto = .select then some { s with punto := .vuelto .error } else none
  | .llega _ => none

def paso (s : Estado P) : Suceso P → Option (Estado P)
  | .llega p => some { s with socket := s.socket ++ [p], llegados := s.llegados ++ [p] }
  | e => if s.atascado then none else s.pasoDaemon e

def inicial : Estado P := ⟨0, 0, [], .bucle, false, 0, 0, [], [], [], false⟩

/-! ## Everything that a step can do -/

inductive Transita (s : Estado P) : Suceso P → Estado P → Prop
  /-- a signal while the daemon is not in `select` -/
  | avisa (ha : s.atascado = false) (hp : s.punto ≠ .select) (hlt : s.inicio + s.tuberia < capacidad) :
      Transita s .senal { s with tuberia := s.tuberia + 1, senales := s.senales + 1 }
  | interrumpe (ha : s.atascado = false) (hp : s.punto = .select) (hlt : s.inicio + s.tuberia < capacidad) :
      Transita s .senal { s with
        tuberia := s.tuberia + 1, senales := s.senales + 1, punto := .vuelto .eintr, avisado := true }
  | llena (ha : s.atascado = false) (hle : capacidad ≤ s.inicio + s.tuberia) :
      Transita s .senal { s with atascado := true, senales := s.senales + 1 }
  | llega (p : P) :
      Transita s (.llega p) { s with socket := s.socket ++ [p], llegados := s.llegados ++ [p] }
  | espera (ha : s.atascado = false) (hp : s.punto = .bucle) :
      Transita s .sigue { s with punto := .select, avisado := decide (0 < s.tuberia) }
  | expira (ha : s.atascado = false) (hp : s.punto = .vuelto .ninguno) :
      Transita s .sigue (s.devuelve .timeOut .bucle)
  | mira (ha : s.atascado = false) {r : Seleccion} (hp : s.punto = .vuelto r)
      (hr : r = .eintr ∨ r = .error ∨ ∃ b, r = .listos true b) :
      Transita s .sigue { s with punto := .lee r }
  | entrega (ha : s.atascado = false) {b : Bool} (hp : s.punto = .vuelto (.listos false b)) :
      Transita s .sigue (s.devuelve .paquete .recibe)
  | lee (ha : s.atascado = false) {r : Seleccion} (hp : s.punto = .lee r) (hlt : 0 < s.tuberia) :
      Transita s .sigue (s.leeTuberia.devuelve .interrup .bucle)
  | recibe (ha : s.atascado = false) (hp : s.punto = .recibe) :
      Transita s .sigue { s with
        punto := .bucle, socket := s.socket.tail, recibidos := s.recibidos ++ [s.socket.head?] }
  | despierta (ha : s.atascado = false) (hp : s.punto = .select) (hl : 0 < s.tuberia ∨ s.socket ≠ []) :
      Transita s .despierta { s with
        punto := .vuelto (.listos (decide (0 < s.tuberia)) !s.socket.isEmpty) }
  | vence (ha : s.atascado = false) (hp : s.punto = .select) (ht : s.tuberia = 0) (hs : s.socket = []) :
      Transita s .vence { s with punto := .vuelto .ninguno }
  | falla (ha : s.atascado = false) (hp : s.punto = .select) :
      Transita s .falla { s with punto := .vuelto .error }

variable {s s' : Estado P}

theorem listo_iff : s.listo = true ↔ 0 < s.tuberia ∨ s.socket ≠ [] := by
  simp [Estado.listo]

theorem transita_riDaemon (ha : s.atascado = false) : Transita s .senal s.riDaemon := by
  unfold Estado.riDaemon
  by_cases hlt : s.inicio + s.tuberia < capacidad
  · rw [if_pos hlt]
    by_cases hp : s.punto = .select
    · rw [if_pos hp, decide_eq_true hp, Bool.or_true]
      exact .interrumpe ha hp hlt
    · rw [if_neg hp, decide_eq_false hp, Bool.or_false]
      exact .avisa ha hp hlt
  · rw [if_neg hlt]
    exact .llena ha (Nat.le_of_not_lt hlt)

theorem transita_avanza (ha : s.atascado = false) (h : s.avanza = some s') : Transita s .sigue s' := by
  unfold Estado.avanza at h
  cases hp : s.punto with
  | bucle =>
      rw [hp] at h
      obtain rfl := Option.some.inj h
      exact .espera ha hp
  | select =>
      rw [hp] at h
      exact absurd h (by simp)
  | vuelto r =>
      rw [hp] at h
      cases r with
      | ninguno =>
          obtain rfl := Option.some.inj h
          exact .expira ha hp
      | eintr =>
          obtain rfl := Option.some.inj h
          exact .mira ha hp (Or.inl rfl)
      | error =>
          obtain rfl := Option.some.inj h
          exact .mira ha hp (Or.inr (Or.inl rfl))
      | listos tuberia socket =>
          cases tuberia with
          | true =>
              obtain rfl := Option.some.inj h
              exact .mira ha hp (Or.inr (Or.inr ⟨_, rfl⟩))
          | false =>
              obtain rfl := Option.some.inj h
              exact .entrega ha hp
  | lee r =>
      rw [hp] at h
      dsimp only at h
      by_cases hcero : s.tuberia = 0
      · rw [if_pos hcero] at h
        exact absurd h (by simp)
      · rw [if_neg hcero] at h
        obtain rfl := Option.some.inj h
        exact .lee ha hp (Nat.pos_of_ne_zero hcero)
  | recibe =>
      rw [hp] at h
      obtain rfl := Option.some.inj h
      exact .recibe ha hp

theorem transita_pasoDaemon {e : Suceso P} (ha : s.atascado = false) (h : s.pasoDaemon e = some s') :
    Transita s e s' := by
  cases e with
  | senal =>
      obtain rfl := Option.some.inj h
      exact transita_riDaemon ha
  | llega p => exact absurd h (by simp [Estado.pasoDaemon])
  | sigue => exact transita_avanza ha h
  | despierta =>
      rw [Estado.pasoDaemon] at h
      by_cases hp : s.punto = .select ∧ s.listo
      · rw [if_pos hp] at h
        obtain rfl := Option.some.inj h
        exact .despierta ha hp.1 (listo_iff.mp hp.2)
      · rw [if_neg hp] at h
        exact absurd h (by simp)
  | vence =>
      rw [Estado.pasoDaemon] at h
      by_cases hp : s.punto = .select ∧ ¬s.listo
      · rw [if_pos hp] at h
        obtain rfl := Option.some.inj h
        obtain ⟨hsel, hno⟩ := hp
        obtain ⟨ht, hs⟩ := not_or.mp (listo_iff.not.mp hno)
        exact .vence ha hsel (Nat.eq_zero_of_not_pos ht) (not_not.mp hs)
      · rw [if_neg hp] at h
        exact absurd h (by simp)
  | falla =>
      rw [Estado.pasoDaemon] at h
      by_cases hp : s.punto = .select
      · rw [if_pos hp] at h
        obtain rfl := Option.some.inj h
        exact .falla ha hp
      · rw [if_neg hp] at h
        exact absurd h (by simp)

theorem transita_of_paso {e : Suceso P} (h : paso s e = some s') : Transita s e s' := by
  have hdaemon : (if s.atascado then none else s.pasoDaemon e) = some s' → Transita s e s' := by
    intro h
    by_cases ha : s.atascado = true
    · rw [if_pos ha] at h
      exact absurd h (by simp)
    · rw [if_neg ha] at h
      exact transita_pasoDaemon (by simpa using ha) h
  cases e with
  | llega p =>
      obtain rfl := Option.some.inj h
      exact .llega p
  | senal | sigue | despierta | vence | falla => exact hdaemon h

/-! ## Where the daemon is -/

/-- What the daemon can rely on at each place: the pipe is read with a byte in it, but after an error of
`select`, and `recvfrom` is called with a packet in the socket. -/
def Punto.Cumple (tuberia : ℕ) (socket : List P) : Punto → Prop
  | .vuelto .eintr => 0 < tuberia
  | .vuelto (.listos true _) => 0 < tuberia
  | .vuelto (.listos false _) => socket ≠ []
  | .lee r => 0 < tuberia ∨ r = .error
  | .recibe => socket ≠ []
  | _ => True

theorem Punto.Cumple.byte {t : ℕ} {socket : List P} {p : Punto} (h : p.Cumple t socket) :
    p.Cumple (t + 1) socket := by
  cases p with
  | bucle | select | recibe => exact h
  | vuelto r =>
      cases r with
      | ninguno | error => trivial
      | eintr => exact Nat.succ_pos t
      | listos tuberia b =>
          cases tuberia with
          | true => exact Nat.succ_pos t
          | false => exact h
  | lee r => exact Or.inl (Nat.succ_pos t)

theorem Punto.Cumple.llega {t : ℕ} {socket : List P} {p : Punto} (h : p.Cumple t socket) (x : P) :
    p.Cumple t (socket ++ [x]) := by
  have hno : socket ++ [x] ≠ [] := List.append_ne_nil_of_right_ne_nil socket (List.cons_ne_nil x [])
  cases p with
  | bucle | select | lee => exact h
  | recibe => exact hno
  | vuelto r =>
      cases r with
      | ninguno | eintr | error => exact h
      | listos tuberia b =>
          cases tuberia with
          | true => exact h
          | false => exact hno

/-- What a notice in time leaves for the rest of the call: the byte is still there, and what is to be
returned is not `TIME_OUT` or `PAQUETE`. -/
def Punto.Avisado (tuberia : ℕ) : Punto → Prop
  | .select => 0 < tuberia
  | .vuelto .ninguno => False
  | .vuelto (.listos false _) => False
  | .vuelto _ => 0 < tuberia
  | .lee _ => 0 < tuberia
  | _ => True

theorem Punto.Avisado.byte {t : ℕ} {p : Punto} (h : p.Avisado t) : p.Avisado (t + 1) := by
  cases p with
  | bucle | recibe => trivial
  | select | lee => exact Nat.succ_pos t
  | vuelto r =>
      cases r with
      | ninguno => exact h
      | eintr | error => exact Nat.succ_pos t
      | listos tuberia b =>
          cases tuberia with
          | true => exact Nat.succ_pos t
          | false => exact h

/-- What there is without a notice. -/
def Punto.SinAviso (tuberia : ℕ) : Punto → Prop
  | .select => tuberia = 0
  | .vuelto .eintr => False
  | .vuelto (.listos true _) => False
  | .lee r => r = .error
  | _ => True

theorem Punto.SinAviso.byte {t t' : ℕ} {p : Punto} (h : p.SinAviso t) (hp : p ≠ .select) :
    p.SinAviso t' := by
  cases p with
  | bucle | recibe => trivial
  | select => exact absurd rfl hp
  | lee r => exact h
  | vuelto r =>
      cases r with
      | ninguno | error => trivial
      | eintr => exact h
      | listos tuberia b =>
          cases tuberia with
          | true => exact h
          | false => trivial

structure Acierta (s : Estado P) : Prop where
  cabe : s.inicio + s.tuberia ≤ capacidad
  cumple : s.punto.Cumple s.tuberia s.socket
  avisado : s.avisado = true → s.punto.Avisado s.tuberia
  sinAviso : s.avisado = false → s.punto.SinAviso s.tuberia
  lleno : s.atascado = true → s.inicio + s.tuberia = capacidad

/-- What is read leaves no less room. -/
theorem cabe_leeTuberia (h : s.inicio + s.tuberia ≤ capacidad) :
    s.leeTuberia.inicio + s.leeTuberia.tuberia ≤ capacidad := by
  show (if s.tuberia ≤ tamBuf then 0 else (s.inicio + tamBuf) % pagina) +
    (s.tuberia - min tamBuf s.tuberia) ≤ capacidad
  by_cases hle : s.tuberia ≤ tamBuf
  · rw [if_pos hle, Nat.min_eq_right hle, Nat.sub_self]
    exact Nat.zero_le _
  · have hmod := Nat.mod_le (s.inicio + tamBuf) pagina
    rw [if_neg hle, Nat.min_eq_left (Nat.le_of_not_le hle)]
    omega

theorem acierta_inicial : Acierta (inicial : Estado P) :=
  ⟨Nat.zero_le _, trivial, fun _ => trivial, fun _ => trivial, fun h => absurd h (by simp [inicial])⟩

theorem acierta_transita {e : Suceso P} (hi : Acierta s) (h : Transita s e s') : Acierta s' := by
  obtain ⟨hcabe, hcumple, havisado, hsin, hlleno⟩ := hi
  have hlibre : ∀ {Q : Prop}, s.atascado = false → s.atascado = true → Q :=
    fun ha ha' => absurd (ha.symm.trans ha') (by simp)
  cases h with
  | avisa ha hp hlt =>
      exact ⟨hlt, hcumple.byte, fun h => (havisado h).byte, fun h => (hsin h).byte hp, hlibre ha⟩
  | interrumpe ha hp hlt =>
      exact ⟨hlt, Nat.succ_pos _, fun _ => Nat.succ_pos _, fun h => absurd h (by simp), hlibre ha⟩
  | llena ha hle => exact ⟨hcabe, hcumple, havisado, hsin, fun _ => Nat.le_antisymm hcabe hle⟩
  | llega p => exact ⟨hcabe, hcumple.llega p, havisado, hsin, hlleno⟩
  | espera ha hp =>
      exact ⟨hcabe, trivial, of_decide_eq_true,
        fun h => Nat.eq_zero_of_not_pos (of_decide_eq_false h), hlibre ha⟩
  | expira ha hp => exact ⟨hcabe, trivial, fun _ => trivial, fun _ => trivial, hlibre ha⟩
  | @mira ha r hp hr =>
      rw [hp] at hcumple havisado hsin
      rcases hr with rfl | rfl | ⟨b, rfl⟩
      · exact ⟨hcabe, Or.inl hcumple, fun _ => hcumple, fun h => (hsin h).elim, hlibre ha⟩
      · exact ⟨hcabe, Or.inr rfl, havisado, fun _ => rfl, hlibre ha⟩
      · exact ⟨hcabe, Or.inl hcumple, fun _ => hcumple, fun h => (hsin h).elim, hlibre ha⟩
  | entrega ha hp =>
      rw [hp] at hcumple
      exact ⟨hcabe, hcumple, fun _ => trivial, fun _ => trivial, hlibre ha⟩
  | lee ha hp hlt =>
      exact ⟨cabe_leeTuberia hcabe, trivial, fun _ => trivial, fun _ => trivial, hlibre ha⟩
  | recibe ha hp => exact ⟨hcabe, trivial, fun _ => trivial, fun _ => trivial, hlibre ha⟩
  | despierta ha hp hl =>
      rw [hp] at havisado hsin
      by_cases ht : 0 < s.tuberia
      · rw [decide_eq_true ht]
        refine ⟨hcabe, ht, fun _ => ht, fun h => ?_, hlibre ha⟩
        exact absurd (hsin h) (Nat.pos_iff_ne_zero.mp ht)
      · rw [decide_eq_false ht]
        exact ⟨hcabe, hl.resolve_left ht, fun h => absurd (havisado h) ht, fun _ => trivial, hlibre ha⟩
  | vence ha hp ht hs =>
      rw [hp] at havisado
      refine ⟨hcabe, trivial, fun h => ?_, fun _ => trivial, hlibre ha⟩
      exact absurd (havisado h) (by simp [Punto.Avisado, ht])
  | falla ha hp =>
      rw [hp] at havisado
      exact ⟨hcabe, trivial, havisado, fun _ => trivial, hlibre ha⟩

/-! ## What is read -/

/-- The packets that `PAQUETE` has announced and `recvfrom` has still to give. -/
def Punto.porRecibir : Punto → ℕ
  | .recibe => 1
  | _ => 0

/-- Every byte written is read once or still in the pipe, every packet is received once, in order, or
still in the socket; an `INTERRUP` stands for 1 to 100 bytes, and a `PAQUETE` for one packet. -/
structure Libro (s : Estado P) : Prop where
  bytes : s.leidos + s.tuberia + s.atascado.toNat = s.senales
  orden : s.recibidos ++ s.socket.map some = s.llegados.map some
  interrup : s.devueltos.count .interrup ≤ s.leidos
  tope : s.leidos ≤ tamBuf * s.devueltos.count .interrup
  paquete : s.devueltos.count .paquete = s.recibidos.length + s.punto.porRecibir

theorem libro_inicial : Libro (inicial : Estado P) :=
  ⟨rfl, rfl, Nat.le_refl _, Nat.le_refl _, rfl⟩

theorem count_devuelve (s : Estado P) (v w : Evento) (p : Punto) :
    (s.devuelve v p).devueltos.count w = s.devueltos.count w + if v = w then 1 else 0 := by
  simp [Estado.devuelve, List.count_append, List.count_singleton]

theorem libro_transita {e : Suceso P} (ha : Acierta s) (hi : Libro s) (h : Transita s e s') :
    Libro s' := by
  obtain ⟨hbytes, horden, hinterrup, htope, hpaquete⟩ := hi
  cases h with
  | avisa hlibre hp hlt =>
      refine ⟨?_, horden, hinterrup, htope, hpaquete⟩
      show s.leidos + (s.tuberia + 1) + s.atascado.toNat = s.senales + 1
      omega
  | interrumpe hlibre hp hlt =>
      rw [hp] at hpaquete
      refine ⟨?_, horden, hinterrup, htope, hpaquete⟩
      show s.leidos + (s.tuberia + 1) + s.atascado.toNat = s.senales + 1
      omega
  | llena hlibre hle =>
      rw [hlibre] at hbytes
      exact ⟨congrArg Nat.succ hbytes, horden, hinterrup, htope, hpaquete⟩
  | llega p =>
      refine ⟨hbytes, ?_, hinterrup, htope, hpaquete⟩
      show s.recibidos ++ (s.socket ++ [p]).map some = (s.llegados ++ [p]).map some
      rw [List.map_append, List.map_append, ← horden, List.append_assoc]
  | espera hlibre hp | despierta hlibre hp | vence hlibre hp | falla hlibre hp =>
      rw [hp] at hpaquete
      exact ⟨hbytes, horden, hinterrup, htope, hpaquete⟩
  | mira hlibre hp hr =>
      rw [hp] at hpaquete
      exact ⟨hbytes, horden, hinterrup, htope, hpaquete⟩
  | expira hlibre hp =>
      rw [hp] at hpaquete
      refine ⟨hbytes, horden, ?_, ?_, ?_⟩ <;> rw [count_devuelve, if_neg (by simp)]
      · exact hinterrup
      · exact htope
      · exact hpaquete
  | entrega hlibre hp =>
      rw [hp] at hpaquete
      refine ⟨hbytes, horden, ?_, ?_, ?_⟩ <;> rw [count_devuelve]
      · rw [if_neg (by simp)]
        exact hinterrup
      · rw [if_neg (by simp)]
        exact htope
      · rw [if_pos rfl]
        exact congrArg Nat.succ hpaquete
  | lee hlibre hp hlt =>
      rw [hp] at hpaquete
      have hmin : 1 ≤ min tamBuf s.tuberia := Nat.le_min.mpr ⟨by decide, hlt⟩
      have hmax : min tamBuf s.tuberia ≤ tamBuf := Nat.min_le_left _ _
      have hle : min tamBuf s.tuberia ≤ s.tuberia := Nat.min_le_right _ _
      refine ⟨?_, horden, ?_, ?_, ?_⟩
      · show s.leidos + min tamBuf s.tuberia + (s.tuberia - min tamBuf s.tuberia) + s.atascado.toNat =
          s.senales
        omega
      · rw [count_devuelve, if_pos rfl]
        exact Nat.add_le_add hinterrup hmin
      · rw [count_devuelve, if_pos rfl, Nat.mul_add, Nat.mul_one]
        exact Nat.add_le_add htope hmax
      · rw [count_devuelve, if_neg (by simp)]
        exact hpaquete
  | recibe hlibre hp =>
      have hhay := ha.cumple
      rw [hp] at hpaquete hhay
      obtain ⟨p, resto, hsocket⟩ := List.exists_cons_of_ne_nil hhay
      rw [hsocket] at horden
      refine ⟨hbytes, ?_, hinterrup, htope, ?_⟩
      · show (s.recibidos ++ [s.socket.head?]) ++ s.socket.tail.map some = _
        rw [hsocket, ← horden, List.append_assoc]
        rfl
      · show _ = (s.recibidos ++ [s.socket.head?]).length + 0
        rw [hpaquete, List.length_append]
        rfl

/-! ## Every run -/

def Suceso.llegada : Suceso P → Option P
  | .llega p => some p
  | _ => none

def Suceso.esSenal : Suceso P → Bool
  | .senal => true
  | _ => false

theorem registro_transita {e : Suceso P} (h : Transita s e s') :
    s'.llegados = s.llegados ++ e.llegada.toList ∧ s'.senales = s.senales + e.esSenal.toNat := by
  cases h with
  | llega p => exact ⟨rfl, rfl⟩
  | avisa | interrumpe | llena => exact ⟨(List.append_nil _).symm, rfl⟩
  | espera | expira | mira | entrega | lee | recibe | despierta | vence | falla =>
      exact ⟨(List.append_nil _).symm, rfl⟩

theorem registro_run {es : List (Suceso P)} (hr : run paso s es = some s') :
    s'.llegados = s.llegados ++ es.filterMap Suceso.llegada ∧
      s'.senales = s.senales + es.countP Suceso.esSenal := by
  induction es generalizing s with
  | nil =>
      obtain rfl : s = s' := Option.some.inj hr
      exact ⟨(List.append_nil _).symm, rfl⟩
  | cons e es ih =>
      obtain ⟨t, hs, hr'⟩ := run_cons_eq_some hr
      obtain ⟨hl, hn⟩ := registro_transita (transita_of_paso hs)
      obtain ⟨hl', hn'⟩ := ih hr'
      refine ⟨?_, ?_⟩
      · rw [hl', hl, List.append_assoc]
        cases e <;> rfl
      · rw [hn', hn, List.countP_cons]
        cases e <;> simp [Suceso.esSenal, Nat.add_assoc, Nat.add_comm]

theorem acierta_run {es : List (Suceso P)} (hr : run paso inicial es = some s) :
    Acierta s ∧ Libro s := by
  refine run_invariant (fun s => Acierta s ∧ Libro s) (fun _ _ _ => True) ?_
    ⟨acierta_inicial, libro_inicial⟩ (Along.of_true (fun _ _ _ _ => trivial) es inicial) hr
  rintro s e s' ⟨ha, hl⟩ - h
  exact ⟨acierta_transita ha (transita_of_paso h), libro_transita ha hl (transita_of_paso h)⟩

/-- The packets received and those in the socket are the ones that have come, in order, none twice and
none missing; the bytes read and those in the pipe are one for each signal. -/
structure Cuentas (es : List (Suceso P)) (s : Estado P) : Prop where
  paquetes : s.recibidos ++ s.socket.map some = (es.filterMap Suceso.llegada).map some
  bytes : s.leidos + s.tuberia + s.atascado.toNat = es.countP Suceso.esSenal
  interrup : s.devueltos.count .interrup ≤ s.leidos ∧ s.leidos ≤ tamBuf * s.devueltos.count .interrup
  paquete : s.devueltos.count .paquete = s.recibidos.length + s.punto.porRecibir

theorem cuentas {es : List (Suceso P)} (hr : run paso inicial es = some s) : Cuentas es s := by
  obtain ⟨-, hbytes, horden, hinterrup, htope, hpaquete⟩ := acierta_run hr
  obtain ⟨hllegados, hsenales⟩ := registro_run hr
  refine ⟨?_, ?_, ⟨hinterrup, htope⟩, hpaquete⟩
  · rw [horden, hllegados]
    rfl
  · rw [hbytes, hsenales]
    exact Nat.zero_add _

/-- Two packets and two signals: the second signal leaves its byte for the next call. -/
def visita : List (Suceso ℕ) :=
  [.sigue, .llega 7, .despierta, .senal, .llega 8, .sigue, .sigue, .sigue, .senal, .sigue, .sigue]

theorem cuentas_visita : ∃ s, run paso inicial visita = some s ∧ Cuentas visita s :=
  ⟨_, rfl, cuentas rfl⟩

/-- What a step that ends a call of `ltm_wait4event` with `v` says of the state before it. -/
structure Justifica (s : Estado P) (v : Evento) : Prop where
  /-- a byte in the pipe before `select` returned, or a `select` that failed -/
  interrup : v = .interrup ↔ s.avisado = true ∨ s.punto = .lee .error
  paquete : v = .paquete → s.socket ≠ []

theorem justifica_transita {e : Suceso P} {v : Evento} (hi : Acierta s) (h : Transita s e s')
    (hv : s'.devueltos = s.devueltos ++ [v]) : Justifica s v := by
  have hquieto : s.devueltos ≠ s.devueltos ++ [v] := by simp
  have hcumple := hi.cumple
  have hsin := hi.sinAviso
  have havisado := hi.avisado
  cases h with
  | avisa | interrumpe | llena | llega | espera | mira | recibe | despierta | vence | falla =>
      exact absurd hv hquieto
  | expira ha hp =>
      obtain rfl := List.singleton_inj.mp (List.append_cancel_left hv)
      rw [hp] at havisado
      refine ⟨iff_of_false (by simp) ?_, by simp⟩
      rintro (h | h)
      · exact havisado h
      · exact absurd (hp.symm.trans h) (by simp)
  | entrega ha hp =>
      obtain rfl := List.singleton_inj.mp (List.append_cancel_left hv)
      rw [hp] at havisado hcumple
      refine ⟨iff_of_false (by simp) ?_, fun _ => hcumple⟩
      rintro (h | h)
      · exact havisado h
      · exact absurd (hp.symm.trans h) (by simp)
  | lee ha hp hlt =>
      obtain rfl := List.singleton_inj.mp (List.append_cancel_left hv)
      rw [hp] at hsin
      refine ⟨iff_of_true rfl ?_, by simp⟩
      cases havi : s.avisado with
      | true => exact Or.inl rfl
      | false =>
          have hr := hsin havi
          exact Or.inr (by rw [hp, hr])

/-- No interruption is lost: the call that a signal comes to before its `select` returns, or that finds a
byte in the pipe, returns `INTERRUP`, whatever the socket holds. -/
theorem pronta (es : List (Suceso P)) :
    Along paso (fun s _ s' => ∀ v, s'.devueltos = s.devueltos ++ [v] → Justifica s v) inicial es := by
  refine along_of_invariant Acierta (fun _ _ _ => True) (fun s e s' hi _ h => ?_) (fun s e s' hi _ h v hv => ?_)
    acierta_inicial (Along.of_true (fun _ _ _ _ => trivial) es inicial)
  · exact acierta_transita hi (transita_of_paso h)
  · exact justifica_transita hi (transita_of_paso h) hv

/-! ## Where the daemon can be stuck -/

/-- Neither the daemon nor `select` can go on by itself. -/
def Estado.Parado (s : Estado P) : Prop :=
  paso s .sigue = none ∧ paso s .despierta = none ∧ paso s .vence = none

theorem parado_of_atascado (h : s.atascado = true) : s.Parado := by
  refine ⟨?_, ?_, ?_⟩ <;> exact if_pos h

theorem paso_libre (ha : s.atascado = false) {e : Suceso P} (he : e.llegada = none) :
    paso s e = s.pasoDaemon e := by
  cases e with
  | llega p => exact absurd he (by simp [Suceso.llegada])
  | senal | sigue | despierta | vence | falla => exact if_neg (by simp [ha])

/-- In `select` either a descriptor is ready or the time can be over. -/
theorem not_parado_select (ha : s.atascado = false) (hp : s.punto = .select) : ¬s.Parado := by
  rintro ⟨-, hdes, hven⟩
  rw [paso_libre ha rfl] at hdes hven
  unfold Estado.pasoDaemon at hdes hven
  dsimp only at hdes hven
  by_cases hl : s.listo = true
  · rw [if_pos ⟨hp, hl⟩] at hdes
    exact absurd hdes (by simp)
  · rw [if_pos ⟨hp, hl⟩] at hven
    exact absurd hven (by simp)

theorem avanza_eq_none_iff : s.avanza = none ↔ s.punto = .select ∨ ∃ r, s.punto = .lee r ∧ s.tuberia = 0 := by
  unfold Estado.avanza
  cases hp : s.punto with
  | bucle | recibe | select => simp
  | vuelto r =>
      cases r with
      | ninguno | eintr | error => simp
      | listos tuberia socket => cases tuberia <;> simp
  | lee r => simp

theorem Acierta.para_iff (hi : Acierta s) : s.Parado ↔
    s.atascado = true ∧ s.inicio + s.tuberia = capacidad ∨ s.punto = .lee .error ∧ s.tuberia = 0 := by
  cases ha : s.atascado with
  | true => exact iff_of_true (parado_of_atascado ha) (Or.inl ⟨rfl, hi.lleno ha⟩)
  | false =>
      have hcumple := hi.cumple
      constructor
      · intro hpar
        have hsig : s.avanza = none := (paso_libre ha rfl).symm.trans hpar.1
        rcases avanza_eq_none_iff.mp hsig with hp | ⟨r, hp, hcero⟩
        · exact absurd hpar (not_parado_select ha hp)
        · rw [hp] at hcumple
          have hr : r = .error := hcumple.resolve_left (by omega)
          exact Or.inr ⟨by rw [hp, hr], hcero⟩
      · rintro (⟨h, -⟩ | ⟨hp, hcero⟩)
        · exact absurd h (by simp)
        · refine ⟨?_, ?_, ?_⟩ <;> rw [paso_libre ha rfl]
          · exact avanza_eq_none_iff.mpr (Or.inr ⟨_, hp, hcero⟩)
          · exact if_neg (by simp [hp])
          · exact if_neg (by simp [hp])

/-- The daemon stops by itself in two places: for good in `RI_daemon` with no room left in the pages of the
pipe, and up to the next signal in a `read` of the empty pipe, which only an error of `select` leads to. -/
theorem parado_iff {es : List (Suceso P)} (hr : run paso inicial es = some s) : s.Parado ↔
    s.atascado = true ∧ s.inicio + s.tuberia = capacidad ∨ s.punto = .lee .error ∧ s.tuberia = 0 :=
  (acierta_run hr).1.para_iff

/-- A `select` that fails with nothing in the pipe. -/
theorem parado_falla : ∃ s : Estado ℕ, run paso inicial [.sigue, .falla, .sigue] = some s ∧ s.Parado := by
  have hr : run paso (inicial : Estado ℕ) [.sigue, .falla, .sigue] = some _ := rfl
  exact ⟨_, hr, (parado_iff hr).mpr (Or.inr ⟨rfl, rfl⟩)⟩

end Ltm.Daemon
