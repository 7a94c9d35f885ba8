import LunaOS.Lib.Slots
import LunaOS.Seatd.Server

/-!
The seat protocol, call by call. A client connects to the socket and makes one call at a
time: a message out, a reply in. The queue of the server is concurrent, so the blocks of
its sources and `accept_client` run beside each other; a step is one system call of a
block, or what the block does to the client table between two of them. `Server` takes
`handle_client_message` for one step. Here other blocks may run between any two of its
calls, and each call reads `cl->fd` again.

Connections are numbered in the order in which they are made, and so accepted. A block is
named after the connection its source was created for. A message and a reply are read as
they were written: 260 bytes, and four with at most one descriptor.
-/
namespace LunaOS.Seatd

/-- An open file of the server: its end of a connection, or a device that a block has
opened. The block's connection and the number of calls that had returned to its client by
then are there to tell one open of a path from another; no step reads them. -/
inductive File where
  | connection (c : Nat)
  | device (path : List UInt8) (c call : Nat)
  deriving DecidableEq

/-- What one `recvmsg` of a client gets. -/
structure Reply where
  code : Int
  file : Option File
  deriving DecidableEq

/-- A connection. `waiting` is the message of the call that has not returned, `closed` that
the server has closed its end; `returned` has the calls that returned, with `none` for the
end of the stream. -/
structure Link where
  inbox : List UInt8 := []
  outbox : List Reply := []
  waiting : Option SeatdMsg := none
  hungUp : Bool := false
  closed : Bool := false
  returned : List (SeatdMsg × Option Reply) := []

/-- Where the block of a source stands: what it does next. -/
inductive Point where
  | idle
  | opening (path : List UInt8)
  | tracking (fd : Nat)
  | replying (code : Int) (fd : Option Nat)
  | releasing (fd : Nat)
  | leaving
  | clearing
  | testing
  deriving DecidableEq

structure Block where
  slot : Fin maxClients
  cancelled : Bool := false
  point : Point := .idle

/-- An `open` that a block has made: it failed with `errno`, or it did not. -/
structure Opening where
  conn : Nat
  call : Nat
  path : List UInt8
  errno : Option Int

/-- The server, its kernel and its clients. `accepting` is the connection that
`accept_client` is at work on, with its descriptor; `openings` only records. -/
structure Protocol where
  clients : Fin maxClients → Client := fun _ => { fd := -1 }
  files : Int → Option File := fun _ => none
  blocks : Nat → Option Block := fun _ => none
  accepting : Option (Nat × Int) := none
  links : Nat → Link := fun _ => {}
  connected : Nat := 0
  accepted : Nat := 0
  openings : List Opening := []

/-- What comes after `recv`: the switch, and the path check of `handle_open_device`. -/
def Point.entry : Option (UInt16 × List UInt8) → Point
  | none => .leaving
  | some (type, path) =>
      if type = msgOpenDevice then
        if refused path then .replying (-eperm) none else .opening path
      else if type = msgCloseDevice then .replying 0 none
      else if type = msgEnableSeat ∨ type = msgDisableSeat then .replying 0 none
      else .testing

def Point.opened : Except Int Nat → Point
  | .error errno => .replying (-errno) none
  | .ok fd => .tracking fd

/-- `if (cl->held_count < 8) cl->held_fds[cl->held_count++] = dev_fd`. -/
def Client.track (cl : Client) (devFd : Nat) : Client :=
  if h : cl.heldCount < 8 then
    { cl with
      heldFds := Function.update cl.heldFds ⟨cl.heldCount, h⟩ devFd
      heldCount := cl.heldCount + 1 }
  else cl

namespace Protocol

def setLink (s : Protocol) (c : Nat) (l : Link) : Protocol :=
  { s with links := Function.update s.links c l }

def setBlock (s : Protocol) (c : Nat) (b : Block) : Protocol :=
  { s with blocks := Function.update s.blocks c (some b) }

def setClient (s : Protocol) (i : Fin maxClients) (cl : Client) : Protocol :=
  { s with clients := Function.update s.clients i cl }

def setFile (s : Protocol) (fd : Int) (f : Option File) : Protocol :=
  { s with files := Function.update s.files fd f }

@[simp] theorem links_setLink (s : Protocol) (c d : Nat) (l : Link) :
    (s.setLink c l).links d = if d = c then l else s.links d :=
  Function.update_apply ..

@[simp] theorem blocks_setBlock (s : Protocol) (c d : Nat) (b : Block) :
    (s.setBlock c b).blocks d = if d = c then some b else s.blocks d :=
  Function.update_apply ..

@[simp] theorem clients_setClient (s : Protocol) (i j : Fin maxClients) (cl : Client) :
    (s.setClient i cl).clients j = if j = i then cl else s.clients j :=
  Function.update_apply ..

@[simp] theorem files_setFile (s : Protocol) (fd fd' : Int) (f : Option File) :
    (s.setFile fd f).files fd' = if fd' = fd then f else s.files fd' :=
  Function.update_apply ..

theorem links_setLink_self (s : Protocol) (c : Nat) (l : Link) : (s.setLink c l).links c = l :=
  Function.update_self ..

theorem blocks_setBlock_self (s : Protocol) (c : Nat) (b : Block) :
    (s.setBlock c b).blocks c = some b :=
  Function.update_self ..

theorem clients_setClient_self (s : Protocol) (i : Fin maxClients) (cl : Client) :
    (s.setClient i cl).clients i = cl :=
  Function.update_self ..

theorem files_setFile_self (s : Protocol) (fd : Int) (f : Option File) :
    (s.setFile fd f).files fd = f :=
  Function.update_self ..

/-! The kernel. -/

/-- `recv(sock, &msg, sizeof(msg), 0)`; `none` where it blocks. -/
def recv (s : Protocol) (sock : Int) : Option (Option (List UInt8) × Protocol) :=
  match s.files sock with
  | some (.connection c) =>
      let l := s.links c
      if l.inbox = [] then
        if l.hungUp then some (some [], s) else none
      else some (some (l.inbox.take msgSize), s.setLink c { l with inbox := l.inbox.drop msgSize })
  | _ => some (none, s)

/-- `sendmsg`, or `send`; `SIGPIPE` is ignored. -/
def sendmsg (s : Protocol) (sock : Int) (r : Reply) : Protocol :=
  match s.files sock with
  | some (.connection c) =>
      let l := s.links c
      if l.hungUp then s else s.setLink c { l with outbox := l.outbox ++ [r] }
  | _ => s

def close (s : Protocol) (fd : Int) : Protocol :=
  match s.files fd with
  | some (.connection c) =>
      (s.setFile fd none).setLink c { s.links c with closed := true, inbox := [] }
  | _ => s.setFile fd none

def recordOpening (s : Protocol) (c : Nat) (path : List UInt8) (errno : Option Int) : Protocol :=
  { s with openings := s.openings ++ [⟨c, (s.links c).returned.length, path, errno⟩] }

/-- `open(path, O_RDWR | O_CLOEXEC)` gives a descriptor that is not open. -/
def openDevice (s : Protocol) (c : Nat) (path : List UInt8) :
    Except Int Nat → Option Protocol
  | .error errno => some (s.recordOpening c path (some errno))
  | .ok fd =>
      if (s.files fd).isSome then none
      else some ((s.recordOpening c path none).setFile fd
        (some (.device path c (s.links c).returned.length)))

/-! The server. -/

/-- The loop of `accept_client`. -/
def freeSlot (s : Protocol) : Option (Fin maxClients) :=
  Fin.find? fun i => decide ((s.clients i).fd < 0)

/-- `accept_client` from `getsockopt` on. -/
def finishAccept (s : Protocol) (c : Nat) (cfd pid : Int) : Protocol :=
  match s.freeSlot with
  | some i =>
      let cl := { s.clients i with fd := cfd, pid := pid, active := true, heldCount := 0 }
      { (s.setClient i cl).setBlock c { slot := i } with accepting := none }
  | none => { s.close cfd with accepting := none }

/-- The next step of the block of connection `c`. `stack` is what its message holds before
`recv`, `opened` what `open` returns. -/
def work (s : Protocol) (c : Nat) (b : Block) (stack : Fin msgSize → UInt8)
    (opened : Except Int Nat) : Option Protocol :=
  let cl := s.clients b.slot
  match b.point with
  | .idle =>
      if b.cancelled then none
      else (s.recv cl.fd).map fun out =>
        out.2.setBlock c { b with point := .entry (requestOf stack out.1) }
  | .opening path =>
      (s.openDevice c path opened).map fun s' =>
        s'.setBlock c { b with point := .opened opened }
  | .tracking fd =>
      some ((s.setClient b.slot (cl.track fd)).setBlock c
        { b with point := .replying 0 (some fd) })
  | .replying code fd =>
      some ((s.sendmsg cl.fd ⟨code, fd.bind fun fd => s.files fd⟩).setBlock c
        { b with point := fd.elim .testing .releasing })
  | .releasing fd => some ((s.close fd).setBlock c { b with point := .testing })
  | .leaving => some ((s.close cl.fd).setBlock c { b with point := .clearing })
  | .clearing =>
      some ((s.setClient b.slot { cl with fd := -1, active := false }).setBlock c
        { b with point := .testing })
  | .testing =>
      some (s.setBlock c
        { b with point := .idle, cancelled := b.cancelled || decide (cl.fd < 0) })

/-- `call` is a client that follows the protocol, `write` one that does not. -/
inductive Action where
  | connect
  | call (c : Nat) (m : SeatdMsg)
  | write (c : Nat) (bytes : List UInt8)
  | receive (c : Nat)
  | hangUp (c : Nat)
  | accept (cfd : Nat)
  | finishAccept (pid : Int)
  | work (c : Nat) (stack : Fin msgSize → UInt8) (opened : Except Int Nat)

def Action.client : Action → Option Nat
  | .call c _ | .write c _ | .receive c | .hangUp c => some c
  | .connect | .accept _ | .finishAccept _ | .work _ _ _ => none

/-- The client of `c` writes; what it writes to a closed connection is lost. -/
def written (l : Link) (bytes : List UInt8) : List UInt8 :=
  if l.closed then l.inbox else l.inbox ++ bytes

def receive (s : Protocol) (c : Nat) : Option Protocol :=
  let l := s.links c
  match l.waiting with
  | none => none
  | some m =>
      match l.outbox with
      | r :: rest => some (s.setLink c { l with
          outbox := rest, waiting := none, returned := l.returned ++ [(m, some r)] })
      | [] =>
          if l.closed then some (s.setLink c { l with
            waiting := none, returned := l.returned ++ [(m, none)] })
          else none

def present (s : Protocol) (c : Nat) : Bool :=
  decide (c < s.connected) && !(s.links c).hungUp

def step (s : Protocol) : Action → Option Protocol
  | .connect => some { s with connected := s.connected + 1 }
  | .call c m =>
      let l := s.links c
      if s.present c && l.waiting.isNone then
        some (s.setLink c { l with waiting := some m, inbox := written l m.toBytes })
      else none
  | .write c bytes =>
      let l := s.links c
      if s.present c then some (s.setLink c { l with inbox := written l bytes }) else none
  | .receive c => if s.present c then s.receive c else none
  | .hangUp c =>
      if s.present c then some (s.setLink c { s.links c with hungUp := true }) else none
  | .accept cfd =>
      if s.accepting.isNone && decide (s.accepted < s.connected) && (s.files cfd).isNone then
        some { s.setFile cfd (some (.connection s.accepted)) with
          accepting := some (s.accepted, cfd), accepted := s.accepted + 1 }
      else none
  | .finishAccept pid => s.accepting.map fun a => s.finishAccept a.1 a.2 pid
  | .work c stack opened => (s.blocks c).bind fun b => s.work c b stack opened

/-! A block that runs by itself is `handle_client_message`. -/

/-- A system call of the handler. -/
def perform (c : Nat) (opened : Except Int Nat) (s : Protocol) : Effect → Option Protocol
  | .openDevice path => s.openDevice c path opened
  | .sendFd sock fd replyCode =>
      some (s.sendmsg sock ⟨replyCode, if fd < 0 then none else s.files fd⟩)
  | .send sock reply => some (s.sendmsg sock ⟨reply, none⟩)
  | .close fd => some (s.close fd)

variable {s s' t : Protocol} {c : Nat} {b b' : Block} {i : Fin maxClients} {cl : Client}
variable {stack : Fin msgSize → UInt8} {opened : Except Int Nat} {r : Option (List UInt8)}

theorem setBlock_setBlock (s : Protocol) : (s.setBlock c b).setBlock c b' = s.setBlock c b' := by
  simp only [setBlock, Function.update_idem]

theorem sendmsg_setBlock (s : Protocol) (sock : Int) (r : Reply) :
    (s.setBlock c b).sendmsg sock r = (s.sendmsg sock r).setBlock c b := by
  unfold sendmsg
  cases file : s.files sock with
  | none => simp only [setBlock, file]
  | some f =>
      cases f with
      | connection d => cases hung : (s.links d).hungUp <;> simp [setBlock, setLink, file, hung]
      | device path d call => simp only [setBlock, file]

theorem sendmsg_setClient (s : Protocol) (sock : Int) (r : Reply) :
    (s.setClient i cl).sendmsg sock r = (s.sendmsg sock r).setClient i cl := by
  unfold sendmsg
  cases file : s.files sock with
  | none => simp only [setClient, file]
  | some f =>
      cases f with
      | connection d => cases hung : (s.links d).hungUp <;> simp [setClient, setLink, file, hung]
      | device path d call => simp only [setClient, file]

theorem close_setBlock (s : Protocol) (fd : Int) :
    (s.setBlock c b).close fd = (s.close fd).setBlock c b := by
  simp only [close, setBlock]
  split <;> rfl

theorem close_setClient (s : Protocol) (fd : Int) :
    (s.setClient i cl).close fd = (s.close fd).setClient i cl := by
  simp only [close, setClient]
  split <;> rfl

theorem openDevice_setBlock (s : Protocol) (path : List UInt8) :
    (s.setBlock c b).openDevice c path opened =
      (s.openDevice c path opened).map fun s' => s'.setBlock c b := by
  cases opened with
  | error errno => rfl
  | ok fd =>
      unfold openDevice
      cases file : s.files fd <;> simp [setBlock, recordOpening, setFile, file]

/-- What a step of a block does, by the point that it is at. -/
inductive Worked (s : Protocol) (c : Nat) (b : Block) (stack : Fin msgSize → UInt8)
    (opened : Except Int Nat) : Point → Protocol → Prop
  | received {out : Option (List UInt8)} {u : Protocol} (alive : b.cancelled = false)
      (got : s.recv (s.clients b.slot).fd = some (out, u)) :
      Worked s c b stack opened .idle
        (u.setBlock c { b with point := .entry (requestOf stack out) })
  | called {path : List UInt8} {u : Protocol} (made : s.openDevice c path opened = some u) :
      Worked s c b stack opened (.opening path) (u.setBlock c { b with point := .opened opened })
  | tracked (fd : Nat) :
      Worked s c b stack opened (.tracking fd)
        ((s.setClient b.slot ((s.clients b.slot).track fd)).setBlock c
          { b with point := .replying 0 (some fd) })
  | replied (code : Int) (fd : Option Nat) :
      Worked s c b stack opened (.replying code fd)
        ((s.sendmsg (s.clients b.slot).fd ⟨code, fd.bind fun fd => s.files fd⟩).setBlock c
          { b with point := fd.elim .testing .releasing })
  | released (fd : Nat) :
      Worked s c b stack opened (.releasing fd)
        ((s.close fd).setBlock c { b with point := .testing })
  | left :
      Worked s c b stack opened .leaving
        ((s.close (s.clients b.slot).fd).setBlock c { b with point := .clearing })
  | cleared :
      Worked s c b stack opened .clearing
        ((s.setClient b.slot { s.clients b.slot with fd := -1, active := false }).setBlock c
          { b with point := .testing })
  | tested :
      Worked s c b stack opened .testing
        (s.setBlock c { b with
          point := .idle, cancelled := b.cancelled || decide ((s.clients b.slot).fd < 0) })

theorem work_cases (next : s.work c b stack opened = some s') :
    ∃ p, b.point = p ∧ Worked s c b stack opened p s' := by
  refine ⟨b.point, rfl, ?_⟩
  unfold work at next
  cases point : b.point with
  | idle =>
      rw [point] at next
      obtain ⟨alive, next⟩ := Option.ite_none_left_eq_some.mp next
      obtain ⟨⟨out, u⟩, got, rfl⟩ := Option.map_eq_some_iff.mp next
      exact .received (Bool.eq_false_of_not_eq_true alive) got
  | opening path =>
      rw [point] at next
      obtain ⟨u, made, rfl⟩ := Option.map_eq_some_iff.mp next
      exact .called made
  | tracking fd =>
      rw [point] at next
      obtain rfl := Option.some.inj next
      exact .tracked fd
  | replying code fd =>
      rw [point] at next
      obtain rfl := Option.some.inj next
      exact .replied code fd
  | releasing fd =>
      rw [point] at next
      obtain rfl := Option.some.inj next
      exact .released fd
  | leaving =>
      rw [point] at next
      obtain rfl := Option.some.inj next
      exact .left
  | clearing =>
      rw [point] at next
      obtain rfl := Option.some.inj next
      exact .cleared
  | testing =>
      rw [point] at next
      obtain rfl := Option.some.inj next
      exact .tested

theorem receive_cases (next : s.receive c = some s') : ∃ m, (s.links c).waiting = some m ∧
    s' = s.setLink c { s.links c with
      outbox := (s.links c).outbox.tail, waiting := none,
      returned := (s.links c).returned ++ [(m, (s.links c).outbox.head?)] } ∧
    ((s.links c).outbox = [] → (s.links c).closed = true) := by
  unfold receive at next
  cases waiting : (s.links c).waiting with
  | none =>
      simp only [waiting] at next
      cases next
  | some m =>
      cases outbox : (s.links c).outbox with
      | nil =>
          simp only [waiting, outbox] at next
          obtain ⟨closed, same⟩ := Option.ite_none_right_eq_some.mp next
          exact ⟨m, rfl, (Option.some.inj same).symm, fun _ => closed⟩
      | cons r rest =>
          simp only [waiting, outbox] at next
          refine ⟨m, rfl, (Option.some.inj next).symm, fun none => ?_⟩
          cases none

/-- A step of a client is one of its end of the connection. -/
theorem step_client {a : Action} (who : a.client = some c) (next : s.step a = some s') :
    ∃ l, s' = s.setLink c l ∧ l.closed = (s.links c).closed ∧
      ((s.links c).hungUp = true → l.hungUp = true) := by
  cases a with
  | call d m | write d bytes =>
      obtain rfl := Option.some.inj who
      obtain ⟨_, same⟩ := Option.ite_none_right_eq_some.mp next
      exact ⟨_, (Option.some.inj same).symm, rfl, id⟩
  | receive d =>
      obtain rfl := Option.some.inj who
      obtain ⟨_, next⟩ := Option.ite_none_right_eq_some.mp next
      obtain ⟨m, _, same, _⟩ := receive_cases next
      exact ⟨_, same, rfl, id⟩
  | hangUp d =>
      obtain rfl := Option.some.inj who
      obtain ⟨_, same⟩ := Option.ite_none_right_eq_some.mp next
      exact ⟨_, (Option.some.inj same).symm, rfl, fun _ => rfl⟩
  | connect | accept _ | finishAccept _ | work _ _ _ => cases who

theorem recv_clients {sock : Int} (got : s.recv sock = some (r, s')) :
    s'.clients = s.clients := by
  unfold recv at got
  split at got
  · dsimp only at got
    split at got
    · obtain ⟨_, same⟩ := Option.ite_none_right_eq_some.mp got
      cases same
      rfl
    · cases got
      rfl
  · cases got
    rfl

theorem openDevice_clients {path : List UInt8}
    (made : s.openDevice c path opened = some s') : s'.clients = s.clients := by
  cases opened with
  | error errno =>
      cases made
      rfl
  | ok fd =>
      obtain ⟨_, same⟩ := Option.ite_none_left_eq_some.mp made
      cases same
      rfl

/-- The next step of a block. -/
theorem run_work (s : Protocol) (b : Block) (n : Nat) :
    Runs.run step (s.setBlock c b) (List.replicate (n + 1) (.work c stack opened)) =
      ((s.setBlock c b).work c b stack opened).bind fun s' =>
        Runs.run step s' (List.replicate n (.work c stack opened)) := by
  rw [List.replicate_succ, Runs.run_cons, step, blocks_setBlock_self]
  rfl

theorem work_replying {code : Int} {fd : Option Nat} (s : Protocol)
    (point : b.point = .replying code fd) :
    (s.setBlock c b).work c b stack opened =
      some ((s.sendmsg (s.clients b.slot).fd ⟨code, fd.bind fun fd => s.files fd⟩).setBlock c
        { b with point := fd.elim .testing .releasing }) := by
  unfold work
  rw [point]
  simp only [sendmsg_setBlock, setBlock_setBlock]
  rfl

theorem work_tracking {fd : Nat} (s : Protocol) (point : b.point = .tracking fd) :
    (s.setBlock c b).work c b stack opened =
      some ((s.setClient b.slot ((s.clients b.slot).track fd)).setBlock c
        { b with point := .replying 0 (some fd) }) := by
  unfold work
  rw [point]
  simp only [setBlock, setClient, Function.update_idem]

theorem work_releasing {fd : Nat} (s : Protocol) (point : b.point = .releasing fd) :
    (s.setBlock c b).work c b stack opened =
      some ((s.close fd).setBlock c { b with point := .testing }) := by
  unfold work
  rw [point]
  simp only [close_setBlock, setBlock_setBlock]

theorem work_leaving (s : Protocol) (point : b.point = .leaving) :
    (s.setBlock c b).work c b stack opened =
      some ((s.close (s.clients b.slot).fd).setBlock c { b with point := .clearing }) := by
  unfold work
  rw [point]
  simp only [close_setBlock, setBlock_setBlock]
  rfl

theorem work_clearing (s : Protocol) (point : b.point = .clearing) :
    (s.setBlock c b).work c b stack opened =
      some ((s.setClient b.slot { s.clients b.slot with fd := -1, active := false }).setBlock c
        { b with point := .testing }) := by
  unfold work
  rw [point]
  simp only [setBlock, setClient, Function.update_idem]

theorem work_opening {path : List UInt8} (s : Protocol) (point : b.point = .opening path) :
    (s.setBlock c b).work c b stack opened =
      (s.openDevice c path opened).map fun s' =>
        s'.setBlock c { b with point := .opened opened } := by
  unfold work
  rw [point]
  simp only [openDevice_setBlock, Option.map_map]
  congr 1
  funext s'
  exact setBlock_setBlock s'

theorem handleOpenDevice_ok {path : List UInt8} (passed : refused path = false) (fd : Nat) :
    handleOpenDevice cl path (.ok fd) =
      (cl.track fd, [.openDevice path, .sendFd cl.fd fd 0, .close fd]) := by
  rw [handleOpenDevice, passed]
  rfl

theorem track_fd (cl : Client) (fd : Nat) : (cl.track fd).fd = cl.fd := by
  unfold Client.track
  split <;> rfl

theorem setClient_kept (same : t.clients = s.clients) (i : Fin maxClients) :
    t.setClient i (s.clients i) = t := by
  rw [← same]
  simp only [setClient, Function.update_eq_self]

theorem sendmsg_clients (s : Protocol) (sock : Int) (r : Reply) :
    (s.sendmsg sock r).clients = s.clients := by
  unfold sendmsg
  split
  · dsimp only
    split <;> rfl
  · rfl

theorem close_clients (s : Protocol) (fd : Int) : (s.close fd).clients = s.clients := by
  unfold close
  split <;> rfl

theorem sendmsg_counts (s : Protocol) (sock : Int) (r : Reply) :
    (s.sendmsg sock r).accepted = s.accepted ∧ (s.sendmsg sock r).connected = s.connected := by
  unfold sendmsg
  split
  · dsimp only
    split <;> exact ⟨rfl, rfl⟩
  · exact ⟨rfl, rfl⟩

theorem close_counts (s : Protocol) (fd : Int) :
    (s.close fd).accepted = s.accepted ∧ (s.close fd).connected = s.connected := by
  unfold close
  split <;> exact ⟨rfl, rfl⟩

/-- A reply without a descriptor is one call. -/
theorem run_replying {code : Int} (s : Protocol) (b : Block) :
    Runs.run step (s.setBlock c { b with point := .replying code none })
      (List.replicate 1 (.work c stack opened)) =
        some (((s.sendmsg (s.clients b.slot).fd ⟨code, none⟩).setClient b.slot
          (s.clients b.slot)).setBlock c { b with point := .testing }) := by
  rw [run_work, work_replying s rfl, setClient_kept (sendmsg_clients ..)]
  rfl

/-- `handle_open_device`, for a path that passes the check. -/
theorem run_opening {path : List UInt8} (s : Protocol) (b : Block)
    (passed : refused path = false)
    (performed : (handleOpenDevice (s.clients b.slot) path opened).2.foldlM
      (perform c opened) s = some t) :
    ∃ n, Runs.run step (s.setBlock c { b with point := .opening path })
      (List.replicate n (.work c stack opened)) =
        some ((t.setClient b.slot (handleOpenDevice (s.clients b.slot) path opened).1).setBlock c
          { b with point := .testing }) := by
  cases opened with
  | error errno =>
      refine ⟨2, ?_⟩
      simp only [handleOpenDevice, passed, Bool.false_eq_true, if_false, List.foldlM_cons,
        List.foldlM_nil, perform, openDevice] at performed ⊢
      cases performed
      rw [run_work, work_opening s rfl]
      exact run_replying (s.recordOpening c path (some errno)) b
  | ok fd =>
      refine ⟨4, ?_⟩
      rw [handleOpenDevice_ok passed] at performed ⊢
      simp only [List.foldlM_cons, List.foldlM_nil, perform] at performed
      obtain ⟨u, made, performed⟩ := Option.bind_eq_some_iff.mp performed
      cases performed
      have named : ¬ (fd : Int) < 0 := by omega
      have reads : u.clients = s.clients := openDevice_clients made
      have seat : ((u.setClient b.slot ((u.clients b.slot).track fd)).clients b.slot).fd =
          (s.clients b.slot).fd := by
        rw [clients_setClient_self, track_fd, reads]
      rw [run_work, work_opening s rfl, made, Option.map_some, Option.bind_some, run_work,
        work_tracking u rfl, Option.bind_some, run_work, work_replying _ rfl, Option.bind_some,
        run_work, seat, sendmsg_setClient]
      rw [work_releasing _ rfl, close_setClient, if_neg named, reads]
      rfl

/-- After `recv` come the calls of `handleClientMessage`. -/
theorem run_entry {out : Option (List UInt8)} (s : Protocol) (b : Block)
    (performed : (handleClientMessage (s.clients b.slot) stack out opened).2.foldlM
      (perform c opened) s = some t) :
    ∃ n, Runs.run step (s.setBlock c { b with point := .entry (requestOf stack out) })
      (List.replicate n (.work c stack opened)) =
        some ((t.setClient b.slot
          (handleClientMessage (s.clients b.slot) stack out opened).1).setBlock c
            { b with point := .testing }) := by
  unfold handleClientMessage at performed ⊢
  cases request : requestOf stack out with
  | none =>
      refine ⟨2, ?_⟩
      simp only [request, disconnect, List.foldlM_cons, List.foldlM_nil, perform] at performed ⊢
      cases performed
      rw [Point.entry, run_work, work_leaving s rfl, Option.bind_some, run_work,
        work_clearing _ rfl, close_clients]
      rfl
  | some acted =>
      obtain ⟨type, path⟩ := acted
      simp only [request, Point.entry, act] at performed ⊢
      by_cases device : type = msgOpenDevice
      · rw [if_pos device] at performed ⊢
        rw [if_pos device]
        cases blocked : refused path with
        | true =>
            refine ⟨1, ?_⟩
            simp only [handleOpenDevice, blocked, if_true, List.foldlM_cons, List.foldlM_nil,
              perform] at performed ⊢
            cases performed
            exact run_replying s b
        | false => exact run_opening s b blocked performed
      · simp only [if_neg device] at performed ⊢
        by_cases closing : type = msgCloseDevice
        · refine ⟨1, ?_⟩
          simp only [if_pos closing, List.foldlM_cons, List.foldlM_nil, perform] at performed ⊢
          cases performed
          exact run_replying s b
        · simp only [if_neg closing] at performed ⊢
          by_cases seat : type = msgEnableSeat ∨ type = msgDisableSeat
          · refine ⟨1, ?_⟩
            simp only [if_pos seat, List.foldlM_cons, List.foldlM_nil, perform] at performed ⊢
            cases performed
            exact run_replying s b
          · refine ⟨0, ?_⟩
            simp only [if_neg seat, List.foldlM_nil] at performed ⊢
            cases performed
            rw [setClient_kept rfl]
            rfl

/-- A block that nobody disturbs makes the calls of `handleClientMessage`, and leaves the
client that it leaves. -/
theorem run_alone {out : Option (List UInt8)} {u : Protocol} (found : s.blocks c = some b)
    (idle : b.point = .idle) (alive : b.cancelled = false)
    (got : s.recv (s.clients b.slot).fd = some (out, u))
    (performed : (handleClientMessage (s.clients b.slot) stack out opened).2.foldlM
      (perform c opened) u = some t) :
    ∃ n, Runs.run step s (List.replicate n (.work c stack opened)) =
      some ((t.setClient b.slot
        (handleClientMessage (s.clients b.slot) stack out opened).1).setBlock c
          { b with point := .testing }) := by
  have reads : u.clients b.slot = s.clients b.slot := congrFun (recv_clients got) b.slot
  rw [← reads] at performed ⊢
  obtain ⟨n, rest⟩ := run_entry u b performed
  have first : s.step (.work c stack opened) =
      some (u.setBlock c { b with point := .entry (requestOf stack out) }) := by
    rw [step, found, Option.bind_some, work, idle, alive, got]
    rfl
  refine ⟨n + 1, ?_⟩
  rw [List.replicate_succ, Runs.run_cons, first]
  exact rest

end Protocol
end LunaOS.Seatd
