import Ltm.Comunicacion.Descriptor
import Ltm.Foundations.CommandLine
import Ltm.Foundations.DottedQuad
import Ltm.Kernel.Interfaz

/-! # The application: `main` of `aplic.c`

`aplic` opens one connection at the port of `-p`: with `-s` it listens there, for any host or for that
of `-r` only, and else it connects to that port of the host of `-r`. At its end it says how the call went.
-/

namespace Ltm.Aplic
open CommandLine Comunicacion Kernel
set_option autoImplicit false
set_option maxHeartbeats 250000

/-- The variables of `main` that the options set; `ip` is that of `tsap_destino`. -/
structure Opciones where
  flagServidor : Bool
  iPuerto : Int
  ip : InAddr
  deriving DecidableEq, Repr

/-- The letters of `"scp:r:"`. -/
def opcion (c : Char) : Option Kind :=
  if c ∈ ['s', 'c'] then some .nothing else if c ∈ ['p', 'r'] then some .argument else none

/-- `inet_pton` for `AF_INET`: a dotted quad, or `none` and nothing is written. -/
def inetPton (l : List Char) : Option InAddr := (DottedQuad.parse l).map UInt32.ofNat

/-- The `switch` of the loop over the options. -/
def atiende (q : Opciones) (x : Char × Word) : Opciones :=
  if x.1 = 's' then { q with flagServidor := true }
  else if x.1 = 'c' then { q with flagServidor := false }
  else if x.1 = 'p' then { q with iPuerto := atoi x.2 }
  else if x.1 = 'r' then { q with ip := (inetPton x.2).getD q.ip }
  else q

def opciones (argv : List Word) : Opciones := (options opcion none argv).foldl atiende ⟨false, 0, 0⟩

/-- The call that `aplic` makes, with `argv[1]` and the words behind it. -/
def aplic (e : Entorno) (argv : List Word) : Llamada :=
  let q := opciones argv
  if q.flagServidor then .listen e ⟨0, Int16.ofInt q.iPuerto⟩ (some ⟨q.ip, 0⟩)
  else .connect e ⟨q.ip, Int16.ofInt q.iPuerto⟩ ⟨0, 0⟩

/-- What `aplic` writes for the result of its call. -/
def mensaje : Int → Option String
  | 0 => some "\nPrimitiva ejecutada con exito\n"
  | -1 => some "\nLa conexion referida no esta en la tabla\n"
  | -2 => some "\nColision con una conexion ya presente en la tabla\n"
  | -3 => some "\nError de (sub)red.Agotado el numero de retransmisiones de un paquete\n"
  | -4 => some "\nError al entrar en el kernel\n"
  | -5 => some "\nMensaje demasiado grande\n"
  | -6 => some "\nNo existe el TSAP especificado\n"
  | -7 => some "\nDatos no disponibles\n"
  | -8 => some "\nFlujo de datos ya cerrado\n"
  | -9 => some "\nArgumento invalido\n"
  | -10 => some "\nNumero maximo de conexiones alcanzado\n"
  | -11 => some "\nError indefinido\n"
  | -12 => some "\nRecibida desconexion\n"
  | _ => none

/-! ## What the options come to -/

def escribeServidor (x : Char × Word) : Option Bool :=
  if x.1 = 's' then some true else if x.1 = 'c' then some false else none

def escribePuerto (x : Char × Word) : Option Int := if x.1 = 'p' then some (atoi x.2) else none

def escribeIp (x : Char × Word) : Option InAddr := if x.1 = 'r' then inetPton x.2 else none

variable {q : Opciones} {x : Char × Word} {l l' : List (Char × Word)} {argv : List Word} {e : Entorno}

theorem atiende_eq (q : Opciones) (x : Char × Word) : atiende q x =
    ⟨(escribeServidor x).getD q.flagServidor, (escribePuerto x).getD q.iPuerto,
      (escribeIp x).getD q.ip⟩ := by
  unfold atiende escribeServidor escribePuerto escribeIp
  by_cases hs : x.1 = 's'
  · simp [hs]
  by_cases hc : x.1 = 'c'
  · simp [hc]
  by_cases hp : x.1 = 'p'
  · simp [hp]
  by_cases hr : x.1 = 'r'
  · simp [hr]
  simp [hs, hc, hp, hr]

theorem foldl_atiende : l.foldl atiende q =
    ⟨l.foldl (fun v x => (escribeServidor x).getD v) q.flagServidor,
      l.foldl (fun v x => (escribePuerto x).getD v) q.iPuerto,
      l.foldl (fun v x => (escribeIp x).getD v) q.ip⟩ := by
  induction l generalizing q with
  | nil => rfl
  | cons x l ih =>
      rw [List.foldl_cons, ih, atiende_eq]
      rfl

/-- What `aplic` makes of any command line: of each kind the last option counts, of the addresses the
last that is one. -/
theorem opciones_eq (argv : List Word) : opciones argv =
    ⟨((options opcion none argv).filterMap escribeServidor).getLast?.getD false,
      ((options opcion none argv).filterMap escribePuerto).getLast?.getD 0,
      ((options opcion none argv).filterMap escribeIp).getLast?.getD 0⟩ := by
  rw [opciones, foldl_atiende, foldl_write, foldl_write, foldl_write]

theorem inetPton_print (ip : InAddr) : inetPton (DottedQuad.print ip.toNat) = some ip := by
  have hlt : ip.toNat < 4294967296 := ip.toNat_lt
  rw [inetPton, DottedQuad.parse_eq_some_iff.mpr ⟨hlt, rfl⟩, Option.map_some, UInt32.ofNat_toNat]

/-- The options for a server, or for a client, at a port, with the other end at an address. -/
def escritas (servidor : Bool) (puerto : Int) (ip : InAddr) : List (Char × Word) :=
  [(if servidor then 's' else 'c', []), ('p', Decimal.print puerto), ('r', DottedQuad.print ip.toNat)]

theorem opciones_of_perm {servidor : Bool} {puerto : Int} {ip : InAddr}
    (hpuerto : -2147483648 ≤ puerto ∧ puerto < 2147483648)
    (h : (options opcion none argv).Perm (escritas servidor puerto ip)) :
    opciones argv = ⟨servidor, puerto, ip⟩ := by
  have hserv : (escritas servidor puerto ip).filterMap escribeServidor = [servidor] := by
    cases servidor <;> rfl
  have hpue : (escritas servidor puerto ip).filterMap escribePuerto = [puerto] := by
    have hatoi := atoi_print hpuerto
    cases servidor <;> simp [escritas, escribePuerto, hatoi]
  have hip : (escritas servidor puerto ip).filterMap escribeIp = [ip] := by
    have hpton := inetPton_print ip
    cases servidor <;> simp [escritas, escribeIp, hpton]
  rw [opciones_eq, getLast?_of_perm h hserv, getLast?_of_perm h hpue, getLast?_of_perm h hip]
  rfl

/-- Every call can be asked for, with the options in any order, several in one word, each argument in
the word of its option or in the next, and other words between. A port is taken modulo `2 ^ 16`. -/
theorem pide {servidor : Bool} {puerto : Int} {ip : InAddr}
    (hpuerto : -2147483648 ≤ puerto ∧ puerto < 2147483648) {ps : List Piece} (hps : ∀ p ∈ ps, p.Good opcion)
    (hperm : (ps.flatMap Piece.options).Perm (escritas servidor puerto ip)) (e : Entorno) :
    aplic e (ps.flatMap Piece.words) =
      if servidor then .listen e ⟨0, Int16.ofInt puerto⟩ (some ⟨ip, 0⟩)
      else .connect e ⟨ip, Int16.ofInt puerto⟩ ⟨0, 0⟩ := by
  have hopt : options opcion none (ps.flatMap Piece.words) = ps.flatMap Piece.options :=
    options_pieces (by decide) hps
  rw [aplic, opciones_of_perm hpuerto (hopt ▸ hperm)]

/-- `aplic -r10.0.0.2 x -cp 80` -/
def piezas : List Piece :=
  [.joined [] 'r' ['1', '0', '.', '0', '.', '0', '.', '2'], .skipped ['x'], .apart ['c'] 'p' ['8', '0']]

theorem pide_piezas : aplic entornoVacio (piezas.flatMap Piece.words) =
    .connect entornoVacio ⟨0x0a000002, 80⟩ ⟨0, 0⟩ :=
  pide (by decide : -2147483648 ≤ (80 : Int) ∧ (80 : Int) < 2147483648)
    (by decide) (by decide +kernel : (piezas.flatMap Piece.options).Perm (escritas false 80 0x0a000002)) _

end Ltm.Aplic
