import Ltm.Foundations.Decimal
import Ltm.Kernel.Parametros

/-! # The raw socket: `get_fd` and `ltm_getRAWfd.c`

Only the superuser opens a raw socket. `get_fd` starts `ltm_getRAWfd`, which opens it and sends its
descriptor back over a pair of sockets; the number of the protocol and that of the end of the pair go as
decimal text, in buffers of eight characters. `ltm_getRAWfd` refuses the protocols outside 140 … 252 with
an exit status, which `get_fd` does not read: it waits for a message that nobody will send
(`getFd_eq`).
-/

namespace Ltm.Comunicacion
open Kernel
set_option autoImplicit false
set_option maxHeartbeats 250000

/-! ## Numbers as text -/

/-- `strtol` in base ten. A number that is no `long` is cut to the nearest one. -/
def strtol (l : List Char) : Int :=
  max (-9223372036854775808) (min (Decimal.scan l) 9223372036854775807)

def atoi (l : List Char) : Int := aInt (strtol l)

/-- `sprintf (buf, "%d", n)` stays inside a buffer of `tam` characters. -/
def cabe (tam : ℕ) (n : Int) : Prop := (Decimal.print n).length + 1 ≤ tam

instance (tam : ℕ) (n : Int) : Decidable (cabe tam n) := inferInstanceAs (Decidable (_ ≤ _))

theorem aInt_of_int {n : Int} (h : -2147483648 ≤ n ∧ n < 2147483648) : aInt n = n := by
  rw [aInt, Int.bmod_def]
  omega

theorem atoi_print {n : Int} (h : -2147483648 ≤ n ∧ n < 2147483648) : atoi (Decimal.print n) = n := by
  rw [atoi, strtol, Decimal.scan_print, min_eq_left (by omega), max_eq_right (by omega), aInt_of_int h]

theorem cabe_ocho_iff {n : Int} : cabe 8 n ↔ -1000000 < n ∧ n < 10000000 :=
  Nat.succ_le_succ_iff.trans (Decimal.length_print_le_iff (by decide : 0 < 6))

theorem atoi_print_of_cabe {n : Int} (h : cabe 8 n) : atoi (Decimal.print n) = n := by
  have hn := cabe_ocho_iff.mp h
  exact atoi_print (by omega)

/-! ## `ltm_getRAWfd` -/

/-- What the system answers to `ltm_getRAWfd`: the descriptor of the socket, whether the two `fcntl`
succeed, and through which descriptors a message can be sent. -/
structure LlamadasRAW where
  socket : Option ℕ
  fSetfl : Bool
  fSetfd : Bool
  sendmsg : Int → Bool

/-- `main` of `ltm_getRAWfd`: its exit status, and the message sent, the descriptor of the socket,
with the descriptor through which it went. -/
def ltmGetRAWfd (so : LlamadasRAW) (argv1 argv2 : List Char) : Int × Option (Int × ℕ) :=
  let fd := atoi argv1
  let proto := atoi argv2
  if proto < 140 ∨ proto > 252 then (-1, none)
  else
    match so.socket with
    | none => (-1, none)
    | some niu =>
      if so.fSetfl = false then (-2, none)
      else if so.fSetfd = false then (-3, none)
      else if so.sendmsg fd = false then (-4, none)
      else (0, some (fd, niu))

/-! ## `get_fd` -/

/-- What the system answers to `get_fd`. `socketpair` is taken to succeed. -/
structure LlamadasFd where
  /-- `fd[0]`, the end of the pair for the child -/
  fd0 : ℕ
  fork : Bool
  execl : Bool
  raw : LlamadasRAW
  /-- what `recvmsg` makes of a message: the descriptor under which the socket is now open, or `-1` -/
  recvmsg : Int

/-- What becomes of a call of `get_fd`. -/
inductive Obtenido
  /-- the child writes past the end of a buffer -/
  | desborda
  /-- `recvmsg` waits, and nothing will arrive: the caller itself keeps the other end open -/
  | espera
  | devuelve (newFd : Int)
  deriving DecidableEq, Repr

/-- `get_fd` in the process that calls it. -/
def getFd (so : LlamadasFd) (ltmProtocol : Int) : Obtenido :=
  if so.fork = false then .espera
  else if ¬cabe 8 so.fd0 ∨ ¬cabe 8 ltmProtocol then .desborda
  else if so.execl = false then .espera
  else
    match (ltmGetRAWfd so.raw (Decimal.print so.fd0) (Decimal.print ltmProtocol)).2 with
    | some (fd, _) => if fd = so.fd0 then .devuelve so.recvmsg else .espera
    | none => .espera

/-- `get_fd` in the child: where `execl` fails, it returns too. -/
def getFdHijo (so : LlamadasFd) : Option Int :=
  if so.fork = true ∧ so.execl = false then some (-1) else none

/-- Every call that opens the socket and sends it succeeds. -/
structure LlamadasFd.Abre (so : LlamadasFd) : Prop where
  fork : so.fork = true
  execl : so.execl = true
  socket : so.raw.socket.isSome = true
  fSetfl : so.raw.fSetfl = true
  fSetfd : so.raw.fSetfd = true
  sendmsg : so.raw.sendmsg so.fd0 = true

instance (so : LlamadasFd) : Decidable so.Abre :=
  decidable_of_iff (so.fork = true ∧ so.execl = true ∧ so.raw.socket.isSome = true ∧
    so.raw.fSetfl = true ∧ so.raw.fSetfd = true ∧ so.raw.sendmsg so.fd0 = true)
    ⟨fun ⟨a, b, c, d, e, f⟩ => ⟨a, b, c, d, e, f⟩, fun ⟨a, b, c, d, e, f⟩ => ⟨a, b, c, d, e, f⟩⟩

theorem ltmGetRAWfd_envia_iff {so : LlamadasRAW} {argv1 argv2 : List Char} {fd : Int} {niu : ℕ} :
    (ltmGetRAWfd so argv1 argv2).2 = some (fd, niu) ↔ (140 ≤ atoi argv2 ∧ atoi argv2 ≤ 252) ∧
      so.socket = some niu ∧ so.fSetfl = true ∧ so.fSetfd = true ∧ so.sendmsg (atoi argv1) = true ∧
      fd = atoi argv1 := by
  unfold ltmGetRAWfd
  by_cases hrango : atoi argv2 < 140 ∨ atoi argv2 > 252
  · rw [if_pos hrango]
    exact iff_of_false (by simp) fun h => absurd h.1 (by omega)
  · rw [if_neg hrango]
    have hdentro : 140 ≤ atoi argv2 ∧ atoi argv2 ≤ 252 := by omega
    cases so.socket with
    | none => simp
    | some niu' =>
        cases so.fSetfl with
        | false => simp
        | true =>
            cases so.fSetfd with
            | false => simp
            | true => cases so.sendmsg (atoi argv1) <;> simp [hdentro, eq_comm, and_comm]

/-- The end of a call of `get_fd` for every number of protocol: a protocol that `ltm_getRAWfd` does not
admit never gives an error. -/
theorem getFd_eq (so : LlamadasFd) (p : Int) : getFd so p =
    if so.fork = true ∧ (10000000 ≤ so.fd0 ∨ p ≤ -1000000 ∨ 10000000 ≤ p) then .desborda
    else if 140 ≤ p ∧ p ≤ 252 ∧ so.Abre then .devuelve so.recvmsg
    else .espera := by
  have hcabe : ¬cabe 8 so.fd0 ∨ ¬cabe 8 p ↔ 10000000 ≤ so.fd0 ∨ p ≤ -1000000 ∨ 10000000 ≤ p := by
    rw [cabe_ocho_iff, cabe_ocho_iff]
    omega
  unfold getFd
  cases hfork : so.fork with
  | false =>
      have habre : ¬(140 ≤ p ∧ p ≤ 252 ∧ so.Abre) :=
        fun h => Bool.false_ne_true (hfork.symm.trans h.2.2.fork)
      rw [if_pos rfl, if_neg (by simp), if_neg habre]
  | true =>
      rw [if_neg (by simp)]
      by_cases hdes : ¬cabe 8 so.fd0 ∨ ¬cabe 8 p
      · rw [if_pos hdes, if_pos ⟨rfl, hcabe.mp hdes⟩]
      · have hcaben := fun h : true = true ∧ _ => hdes (hcabe.mpr h.2)
        rw [if_neg hdes, if_neg hcaben]
        obtain ⟨hfd, hp⟩ := not_or.mp hdes
        have hfd0 := atoi_print_of_cabe (not_not.mp hfd)
        have hproto := atoi_print_of_cabe (not_not.mp hp)
        by_cases h : 140 ≤ p ∧ p ≤ 252 ∧ so.Abre
        · obtain ⟨niu, hniu⟩ := Option.isSome_iff_exists.mp h.2.2.socket
          have henvia : (ltmGetRAWfd so.raw (Decimal.print so.fd0) (Decimal.print p)).2 =
              some ((so.fd0 : Int), niu) := by
            rw [ltmGetRAWfd_envia_iff, hfd0, hproto]
            exact ⟨⟨h.1, h.2.1⟩, hniu, h.2.2.fSetfl, h.2.2.fSetfd, h.2.2.sendmsg, rfl⟩
          rw [if_pos h, if_neg (by rw [h.2.2.execl]; simp), henvia]
          exact if_pos rfl
        · rw [if_neg h]
          cases hexec : so.execl with
          | false => exact if_pos rfl
          | true =>
              rw [if_neg (by simp)]
              cases henvia : (ltmGetRAWfd so.raw (Decimal.print so.fd0) (Decimal.print p)).2 with
              | none => rfl
              | some m =>
                  -- a message that was sent would have needed every call
                  obtain ⟨hrango, hniu, hfl, hcl, hsend, -⟩ := ltmGetRAWfd_envia_iff.mp henvia
                  rw [hfd0] at hsend
                  rw [hproto] at hrango
                  exact absurd ⟨hrango.1, hrango.2, hfork, hexec,
                    by rw [hniu, Option.isSome_some], hfl, hcl, hsend⟩ h

/-! ## Opening the network -/

/-- The fields of `interfaz_red_interno_t` that opening the network reads or writes. -/
structure RedInterna where
  interfaz : String
  ipLocal : InAddr
  ltmProtocol : Int
  deriving DecidableEq

structure LlamadasRed where
  fd : LlamadasFd
  interfaces : Option (List Interfaz)
  bind : InAddr → Bool

/-- What becomes of `inicia_interfaz_red` or `config_interfaz_red`. -/
inductive Apertura
  | desborda
  | espera
  | retorna (r : Int)
  | exit (codigo : Int)
  deriving DecidableEq, Repr

/-- The daemon opens the network, and leaves its own address in the shared memory. -/
def iniciaInterfazRed (so : LlamadasRed) (ir : RedInterna) : Apertura × RedInterna :=
  match getFd so.fd ir.ltmProtocol with
  | .desborda => (.desborda, ir)
  | .espera => (.espera, ir)
  | .devuelve fd =>
    if fd < 0 then (.retorna (-1), ir)
    else
      let r := obtenerIPLocal so.interfaces ir.interfaz ir.ipLocal
      let ir := { ir with ipLocal := r.2 }
      if r.1 = 0 then (.retorna (-1), ir)
      else if so.bind ir.ipLocal = false then (.retorna (-1), ir)
      else (.retorna 0, ir)

/-- An application opens the network with what the daemon left. -/
def configInterfazRed (so : LlamadasRed) (ir : RedInterna) : Apertura :=
  match getFd so.fd ir.ltmProtocol with
  | .desborda => .desborda
  | .espera => .espera
  | .devuelve fd =>
    if fd < 0 then .retorna (-1)
    else if so.bind ir.ipLocal = false then .exit (-1)
    else .retorna 0

variable {so : LlamadasRed} {ir ir' : RedInterna}

theorem iniciaInterfazRed_eq (so : LlamadasRed) (ir : RedInterna) : (iniciaInterfazRed so ir).1 =
    if so.fd.fork = true ∧
      (10000000 ≤ so.fd.fd0 ∨ ir.ltmProtocol ≤ -1000000 ∨ 10000000 ≤ ir.ltmProtocol) then .desborda
    else if 140 ≤ ir.ltmProtocol ∧ ir.ltmProtocol ≤ 252 ∧ so.fd.Abre then
      if so.fd.recvmsg < 0 ∨ so.interfaces = none ∨
        so.bind (obtenerIPLocal so.interfaces ir.interfaz ir.ipLocal).2 = false then .retorna (-1)
      else .retorna 0
    else .espera := by
  unfold iniciaInterfazRed
  rw [getFd_eq]
  by_cases hdes : so.fd.fork = true ∧
    (10000000 ≤ so.fd.fd0 ∨ ir.ltmProtocol ≤ -1000000 ∨ 10000000 ≤ ir.ltmProtocol)
  · rw [if_pos hdes, if_pos hdes]
  · rw [if_neg hdes, if_neg hdes]
    by_cases habre : 140 ≤ ir.ltmProtocol ∧ ir.ltmProtocol ≤ 252 ∧ so.fd.Abre
    · rw [if_pos habre, if_pos habre]
      dsimp only
      by_cases hfd : so.fd.recvmsg < 0
      · rw [if_pos hfd, if_pos (Or.inl hfd)]
      · rw [if_neg hfd]
        cases hint : so.interfaces with
        | none =>
            rw [if_pos (show (obtenerIPLocal none ir.interfaz ir.ipLocal).1 = 0 from rfl),
              if_pos (Or.inr (Or.inl rfl))]
        | some lista =>
            rw [obtenerIPLocal_some, if_neg one_ne_zero]
            dsimp only
            by_cases hbind : so.bind ((lista.findSome? (ipDe ir.interfaz)).getD ir.ipLocal) = false
            · rw [if_pos hbind, if_pos (Or.inr (Or.inr hbind))]
            · rw [if_neg hbind, if_neg (by simp [hfd, hbind])]
    · rw [if_neg habre, if_neg habre]

/-- What the daemon has found, and what it leaves, when `inicia_interfaz_red` succeeds. -/
theorem iniciaInterfazRed_cero (h : iniciaInterfazRed so ir = (.retorna 0, ir')) :
    (140 ≤ ir.ltmProtocol ∧ ir.ltmProtocol ≤ 252) ∧ ∃ lista, so.interfaces = some lista ∧
      ir' = { ir with ipLocal := (lista.findSome? (ipDe ir.interfaz)).getD ir.ipLocal } := by
  have hfin := iniciaInterfazRed_eq so ir
  rw [h] at hfin
  dsimp only at hfin
  split at hfin
  · exact absurd hfin (by simp)
  · next hdes =>
    split at hfin
    · next habre =>
      split at hfin
      · exact absurd hfin (by simp)
      · next hbien =>
        obtain ⟨hfd, hint, hbind⟩ : ¬so.fd.recvmsg < 0 ∧ ¬so.interfaces = none ∧ _ := by
          simpa only [not_or] using hbien
        obtain ⟨lista, hlista⟩ := Option.ne_none_iff_exists'.mp hint
        refine ⟨⟨habre.1, habre.2.1⟩, lista, hlista, ?_⟩
        rw [hlista, obtenerIPLocal_some] at hbind
        unfold iniciaInterfazRed at h
        rw [getFd_eq, if_neg hdes, if_pos habre] at h
        dsimp only at h
        rw [if_neg hfd, hlista, obtenerIPLocal_some, if_neg one_ne_zero] at h
        dsimp only at h
        rw [if_neg hbind] at h
        exact (Prod.mk.inj h).2.symm
    · exact absurd hfin (by simp)

/-- After the daemon has opened the network, the number of the protocol gives no application trouble:
`config_interfaz_red` fails only where a call of its own does, and then it waits for ever, or ends the
application, where `-1` was to be expected. Both are bound to the first address of the interface, or
to the one that was in the shared memory where it has none. -/
theorem red_compartida (h : iniciaInterfazRed so ir = (.retorna 0, ir')) (so' : LlamadasRed) :
    (configInterfazRed so' ir' =
      if so'.fd.fork = true ∧ 10000000 ≤ so'.fd.fd0 then .desborda
      else if ¬so'.fd.Abre then .espera
      else if so'.fd.recvmsg < 0 then .retorna (-1)
      else if so'.bind ir'.ipLocal = false then .exit (-1)
      else .retorna 0) ∧
    ∃ lista, so.interfaces = some lista ∧ (∀ ip, PrimeraIP lista ir.interfaz ip → ir'.ipLocal = ip) ∧
      ((∀ ip, ¬PrimeraIP lista ir.interfaz ip) → ir'.ipLocal = ir.ipLocal) := by
  obtain ⟨⟨hmin, hmax⟩, lista, hlista, rfl⟩ := iniciaInterfazRed_cero h
  refine ⟨?_, lista, hlista, fun ip hip => ?_, fun hno => ?_⟩
  · unfold configInterfazRed
    rw [getFd_eq]
    dsimp only
    by_cases hdes : so'.fd.fork = true ∧ 10000000 ≤ so'.fd.fd0
    · rw [if_pos ⟨hdes.1, Or.inl hdes.2⟩, if_pos hdes]
    · have hno : ¬(so'.fd.fork = true ∧
          (10000000 ≤ so'.fd.fd0 ∨ ir.ltmProtocol ≤ -1000000 ∨ 10000000 ≤ ir.ltmProtocol)) :=
        fun h => hdes ⟨h.1, by omega⟩
      rw [if_neg hno, if_neg hdes]
      by_cases habre : so'.fd.Abre
      · rw [if_pos ⟨hmin, hmax, habre⟩, if_neg (not_not.mpr habre)]
      · rw [if_neg fun hc => habre hc.2.2, if_pos habre]
  · dsimp only
    rw [findSome?_ipDe_eq_some_iff.mpr hip, Option.getD_some]
  · dsimp only
    have hnone : lista.findSome? (ipDe ir.interfaz) = none :=
      Option.eq_none_iff_forall_ne_some.mpr fun ip hip => hno ip (findSome?_ipDe_eq_some_iff.mp hip)
    rw [hnone, Option.getD_none]

def soRed (ip : InAddr) : LlamadasRed :=
  ⟨⟨4, true, true, ⟨some 3, true, true, fun _ => true⟩, 5⟩, some [⟨"lo", some (2, 1)⟩, ⟨"eth0", some (2, ip)⟩],
    fun _ => true⟩

theorem red_compartida_eth0 :
    iniciaInterfazRed (soRed 7) ⟨"eth0", 0, 233⟩ = (.retorna 0, ⟨"eth0", 7, 233⟩) ∧
      configInterfazRed (soRed 9) ⟨"eth0", 7, 233⟩ = .retorna 0 := by
  have h : iniciaInterfazRed (soRed 7) ⟨"eth0", 0, 233⟩ = (.retorna 0, ⟨"eth0", 7, 233⟩) := by
    decide +kernel
  exact ⟨h, ((red_compartida h (soRed 9)).1).trans (by decide +kernel)⟩

end Ltm.Comunicacion
