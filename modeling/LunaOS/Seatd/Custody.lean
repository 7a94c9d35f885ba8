import LunaOS.Seatd.Protocol

/-!
Whose descriptor is whose, while blocks run beside each other. What is known of a
connection, its block and its descriptors is `Custody`; the steps of other connections
leave it `Untouched`, so one step needs looking at from its own connection only. The one
step that can go wrong is the test of a block whose client has left: where another client
has the slot by then, the source stays, and two blocks work for one slot from then on.
-/
namespace LunaOS.Seatd

def File.conn : File → Nat
  | .connection c => c
  | .device _ c _ => c

/-- The device's descriptor that the block has in its hands. -/
def Point.holds : Point → Option Nat
  | .tracking fd => some fd
  | .replying _ fd => fd
  | .releasing fd => some fd
  | _ => none

namespace Protocol

/-- The client of connection `c` is the one in the block's slot. -/
def Seated (s : Protocol) (c : Nat) (b : Block) : Prop :=
  0 ≤ (s.clients b.slot).fd ∧ s.files (s.clients b.slot).fd = some (.connection c)

/-- The slot of the block is not another's yet. -/
def Owns (s : Protocol) (c : Nat) (b : Block) : Prop :=
  (s.links c).closed = false ∨ b.point = .clearing

/-- A block whose connection is closed. -/
inductive Leaves (cl : Client) (b : Block) : Prop
  | clearing (here : b.point = .clearing) (alive : b.cancelled = false) (dangles : 0 ≤ cl.fd)
  | testing (here : b.point = .testing) (alive : b.cancelled = false)
  | finished (here : b.point = .idle) (dead : b.cancelled = true)

/-- What is known of a connection that has a block. -/
structure Serves (s : Protocol) (c : Nat) (b : Block) : Prop where
  file : ∀ fd, s.files fd = some (.connection c) →
    (s.links c).closed = false ∧ (s.clients b.slot).fd = fd
  device : ∀ fd path call, s.files fd = some (.device path c call) →
    ∃ n, b.point.holds = some n ∧ fd = n
  held : ∀ fd, b.point.holds = some fd → ∃ path call, s.files fd = some (.device path c call)
  seated : (s.links c).closed = false → b.cancelled = false ∧ b.point ≠ .clearing ∧ s.Seated c b
  gone : (s.links c).closed = true → (s.links c).hungUp = true ∧ Leaves (s.clients b.slot) b
  leaving : b.point = .leaving → (s.links c).hungUp = true
  absent : ∀ fd, s.accepting ≠ some (c, fd)
  accepted : c < s.accepted

/-- What is known of one that has none: it waits to be accepted, or `accept_client` is at
work on it, or it was turned away. -/
structure Vacant (s : Protocol) (c : Nat) : Prop where
  file : ∀ fd, s.files fd = some (.connection c) →
    (s.links c).closed = false ∧ s.accepting = some (c, fd)
  device : ∀ fd path call, s.files fd ≠ some (.device path c call)
  arriving : ∀ fd, s.accepting = some (c, fd) →
    0 ≤ fd ∧ s.files fd = some (.connection c) ∧ c < s.accepted
  fresh : s.accepted ≤ c → (s.links c).closed = false

def Custody (s : Protocol) (c : Nat) : Prop :=
  match s.blocks c with
  | some b => s.Serves c b
  | none => s.Vacant c

/-- Nothing that is known of connection `c` has changed. -/
structure View (c : Nat) (s s' : Protocol) : Prop where
  file : ∀ fd f, f.conn = c → (s'.files fd = some f ↔ s.files fd = some f)
  closed : (s'.links c).closed = (s.links c).closed
  hungUp : (s.links c).hungUp = true → (s'.links c).hungUp = true
  seat : ∀ b, s.blocks c = some b → s.Owns c b →
    (s'.clients b.slot).fd = (s.clients b.slot).fd
  accepting : ∀ fd, s'.accepting = some (c, fd) ↔ s.accepting = some (c, fd)
  accepted : c < s'.accepted ↔ c < s.accepted

/-- Nothing of connection `c` has changed. -/
structure Untouched (c : Nat) (s s' : Protocol) : Prop extends View c s s' where
  block : s'.blocks c = s.blocks c
  link : s'.links c = s.links c
  openings : (s'.openings.filter fun o => o.conn = c) = s.openings.filter fun o => o.conn = c

structure Sound (s : Protocol) : Prop where
  custody : ∀ c, s.Custody c
  alone : ∀ c c' b b', s.blocks c = some b → s.blocks c' = some b' → s.Owns c b →
    s.Owns c' b' → b.slot = b'.slot → c = c'
  occupied : ∀ i, 0 ≤ (s.clients i).fd → ∃ c b, s.blocks c = some b ∧ s.Owns c b ∧ b.slot = i
  counted : s.accepted ≤ s.connected

/-- The test of a block whose client has left finds the slot free. -/
def LeaverFindsFree (s : Protocol) : Action → Prop
  | .work c _ _ => ∀ b ∈ s.blocks c, b.point = .testing →
      (s.links c).closed = true → (s.clients b.slot).fd < 0
  | _ => True

instance (s : Protocol) : (a : Action) → Decidable (s.LeaverFindsFree a)
  | .work c _ _ => inferInstanceAs (Decidable (∀ b ∈ s.blocks c, b.point = .testing →
      (s.links c).closed = true → (s.clients b.slot).fd < 0))
  | .connect | .call _ _ | .write _ _ | .receive _ | .hangUp _ | .accept _ | .finishAccept _ =>
      inferInstanceAs (Decidable True)

variable {s s' t : Protocol} {c d : Nat} {b b' : Block} {i : Fin maxClients} {cl : Client}
variable {stack : Fin msgSize → UInt8}

theorem Leaves.of_clearing (h : Leaves cl b) (point : b.point = .clearing) :
    b.cancelled = false ∧ 0 ≤ cl.fd := by
  cases h with
  | clearing _ alive dangles => exact ⟨alive, dangles⟩
  | testing here _ | finished here _ =>
      rw [point] at here
      cases here

/-! What the steps of others leave alone. -/

theorem View.refl (c : Nat) (s : Protocol) : View c s s :=
  ⟨fun _ _ _ => Iff.rfl, rfl, id, fun _ _ _ => rfl, fun _ => Iff.rfl, Iff.rfl⟩

theorem Untouched.refl (c : Nat) (s : Protocol) : Untouched c s s :=
  ⟨.refl c s, rfl, rfl, rfl⟩

theorem View.owns (h : View c s s') (b : Block) : s'.Owns c b ↔ s.Owns c b := by
  rw [Owns, Owns, h.closed]

theorem View.trans (h : View c s t) (block : t.blocks c = s.blocks c) (h' : View c t s') :
    View c s s' where
  file fd f own := (h'.file fd f own).trans (h.file fd f own)
  closed := h'.closed.trans h.closed
  hungUp hung := h'.hungUp (h.hungUp hung)
  seat b found owns := (h'.seat b (block.trans found) ((h.owns b).mpr owns)).trans
    (h.seat b found owns)
  accepting fd := (h'.accepting fd).trans (h.accepting fd)
  accepted := h'.accepted.trans h.accepted

theorem Untouched.trans (h : Untouched c s t) (h' : Untouched c t s') : Untouched c s s' where
  toView := h.toView.trans h.block h'.toView
  block := h'.block.trans h.block
  link := h'.link.trans h.link
  openings := h'.openings.trans h.openings

theorem untouched_setLink (other : d ≠ c) (s : Protocol) (l : Link) :
    Untouched d s (s.setLink c l) := by
  have same : (s.setLink c l).links d = s.links d := Function.update_of_ne other ..
  exact ⟨{ View.refl d s with
    closed := by rw [same]
    hungUp := by rw [same]; exact id }, rfl, same, rfl⟩

theorem untouched_setBlock (other : d ≠ c) (s : Protocol) (b : Block) :
    Untouched d s (s.setBlock c b) :=
  ⟨{ View.refl d s with }, Function.update_of_ne other .., rfl, rfl⟩

/-- A slot may be written where no one else owns it, or keeps its descriptor. -/
theorem view_setClient (s : Protocol) (apart : ∀ b, s.blocks d = some b → s.Owns d b →
      b.slot = i → cl.fd = (s.clients i).fd) : View d s (s.setClient i cl) :=
  { View.refl d s with
    seat := by
      intro b found owns
      rw [clients_setClient]
      split
      · rename_i here
        rw [here]
        exact apart b found owns here
      · rfl }

theorem untouched_setClient (s : Protocol) (apart : ∀ b, s.blocks d = some b → s.Owns d b →
      b.slot = i → cl.fd = (s.clients i).fd) : Untouched d s (s.setClient i cl) :=
  ⟨view_setClient s apart, rfl, rfl, rfl⟩

theorem untouched_setFile {fd : Int} {f : Option File} (s : Protocol)
    (before : ∀ g, s.files fd = some g → g.conn ≠ d) (after : ∀ g, f = some g → g.conn ≠ d) :
    Untouched d s (s.setFile fd f) := by
  refine ⟨{ View.refl d s with file := ?_ }, rfl, rfl, rfl⟩
  intro fd' g own
  rw [files_setFile]
  split
  · rename_i here
    rw [here]
    exact iff_of_false (fun is => after g is own) fun was => before g was own
  · exact Iff.rfl

theorem untouched_close {fd : Int} (s : Protocol)
    (before : ∀ g, s.files fd = some g → g.conn ≠ d) : Untouched d s (s.close fd) := by
  have cleared : Untouched d s (s.setFile fd none) :=
    untouched_setFile s before fun _ same => by cases same
  unfold close
  cases file : s.files fd with
  | none => exact cleared
  | some f =>
      cases f with
      | connection c => exact cleared.trans (untouched_setLink (before _ file).symm ..)
      | device path c call => exact cleared

theorem untouched_sendmsg {sock : Int} (s : Protocol) (r : Reply)
    (before : ∀ g, s.files sock = some g → g.conn ≠ d) : Untouched d s (s.sendmsg sock r) := by
  unfold sendmsg
  cases file : s.files sock with
  | none => exact .refl d s
  | some f =>
      cases f with
      | connection c =>
          dsimp only
          split
          · exact .refl d s
          · exact untouched_setLink (before _ file).symm ..
      | device path c call => exact .refl d s

theorem untouched_recordOpening (other : d ≠ c) (s : Protocol) (path : List UInt8)
    (errno : Option Int) : Untouched d s (s.recordOpening c path errno) := by
  refine ⟨{ View.refl d s with }, rfl, rfl, ?_⟩
  rw [recordOpening, List.filter_append]
  simp [other.symm]

/-! What is known survives a step that is another's. -/

theorem Serves.view (h : s.Serves c b) (found : s.blocks c = some b) (v : View c s s') :
    s'.Serves c b where
  file := by
    intro fd is
    obtain ⟨closed, at_fd⟩ := h.file fd ((v.file fd _ rfl).mp is)
    exact ⟨v.closed.trans closed, (v.seat b found (Or.inl closed)).trans at_fd⟩
  device fd path call is := h.device fd path call ((v.file fd _ rfl).mp is)
  held := by
    intro fd holds
    obtain ⟨path, call, file⟩ := h.held fd holds
    exact ⟨path, call, (v.file _ _ rfl).mpr file⟩
  seated := by
    intro closed
    rw [v.closed] at closed
    obtain ⟨alive, point, seat, file⟩ := h.seated closed
    have fd := v.seat b found (Or.inl closed)
    refine ⟨alive, point, ?_, ?_⟩
    · rw [fd]
      exact seat
    · rw [fd, v.file _ _ rfl]
      exact file
  gone := by
    intro closed
    rw [v.closed] at closed
    obtain ⟨hung, leaves⟩ := h.gone closed
    refine ⟨v.hungUp hung, ?_⟩
    cases leaves with
    | clearing here alive dangles =>
        refine .clearing here alive ?_
        rw [v.seat b found (Or.inr here)]
        exact dangles
    | testing here alive => exact .testing here alive
    | finished here dead => exact .finished here dead
  leaving point := v.hungUp (h.leaving point)
  absent fd is := h.absent fd ((v.accepting fd).mp is)
  accepted := v.accepted.mpr h.accepted

theorem Vacant.view (h : s.Vacant c) (v : View c s s') : s'.Vacant c where
  file := by
    intro fd is
    rw [v.closed, v.accepting]
    exact h.file fd ((v.file fd _ rfl).mp is)
  device fd path call is := h.device fd path call ((v.file fd _ rfl).mp is)
  arriving := by
    intro fd is
    rw [v.file fd _ rfl, v.accepted]
    exact h.arriving fd ((v.accepting fd).mp is)
  fresh := by
    intro later
    rw [v.closed]
    exact h.fresh (Nat.le_of_not_lt fun before => Nat.not_lt.mpr later (v.accepted.mpr before))

theorem custody_of_some (found : s.blocks c = some b) : s.Custody c ↔ s.Serves c b := by
  rw [Custody, found]

theorem custody_of_none (found : s.blocks c = none) : s.Custody c ↔ s.Vacant c := by
  rw [Custody, found]

theorem Custody.serves (h : s.Custody c) (found : s.blocks c = some b) : s.Serves c b :=
  (custody_of_some found).mp h

theorem Custody.vacant (h : s.Custody c) (none : s.blocks c = none) : s.Vacant c :=
  (custody_of_none none).mp h

theorem Custody.view (h : s.Custody c) (v : View c s s') (block : s'.blocks c = s.blocks c) :
    s'.Custody c := by
  cases found : s.blocks c with
  | none =>
      rw [custody_of_none (block.trans found)]
      exact (h.vacant found).view v
  | some b =>
      rw [custody_of_some (block.trans found)]
      exact (h.serves found).view found v

/-! The steps of a connection's own block. -/

theorem Serves.close_held (h : s.Serves c b) {fd : Nat} (holds : b.point.holds = some fd) :
    s.close fd = s.setFile fd none := by
  obtain ⟨path, call, device⟩ := h.held fd holds
  rw [close, device]

/-- The block of an open connection goes on, with the same descriptor in its hands. -/
theorem Serves.moved (h : s.Serves c b) (closed : (s.links c).closed = false) {p : Point}
    (point : p ≠ .clearing) (holds : p.holds = b.point.holds)
    (leaving : p = .leaving → (s.links c).hungUp = true) :
    s.Serves c { b with point := p } :=
  { h with
    device := by
      simp only [holds]
      exact h.device
    held := by
      simp only [holds]
      exact h.held
    seated := by
      intro _
      obtain ⟨alive, _, seat⟩ := h.seated closed
      exact ⟨alive, point, seat⟩
    gone := by
      intro closed'
      rw [closed] at closed'
      cases closed'
    leaving := leaving }

/-- It opens a device. -/
theorem Serves.opens (h : s.Serves c b) (closed : (s.links c).closed = false)
    (empty : b.point.holds = none) {fd : Nat} (unused : s.files fd = none)
    (path : List UInt8) (call : Nat) :
    (s.setFile fd (some (.device path c call))).Serves c { b with point := .tracking fd } where
  file := by
    intro fd' file
    rw [files_setFile] at file
    split at file
    · cases file
    · exact h.file fd' file
  device := by
    intro fd' path' call' file
    rw [files_setFile] at file
    split at file
    · rename_i same
      exact ⟨fd, rfl, same⟩
    · obtain ⟨n, has, _⟩ := h.device fd' path' call' file
      rw [empty] at has
      cases has
  held := by
    intro fd' has
    obtain rfl := Option.some.inj has
    refine ⟨path, call, ?_⟩
    rw [files_setFile_self]
  seated := by
    intro _
    obtain ⟨alive, _, seat, file⟩ := h.seated closed
    refine ⟨alive, ?_, seat, ?_⟩
    · intro same
      cases same
    · change (s.setFile fd _).files (s.clients b.slot).fd = _
      rw [files_setFile, if_neg, file]
      intro same
      rw [same, unused] at file
      cases file
  gone := by
    intro closed'
    rw [show ((s.setFile fd (some (.device path c call))).links c).closed = false from closed]
      at closed'
    cases closed'
  leaving := by
    intro same
    cases same
  absent := h.absent
  accepted := h.accepted

/-- It closes the device again. -/
theorem Serves.releases (h : s.Serves c b) (closed : (s.links c).closed = false) {fd : Nat}
    (holds : b.point.holds = some fd) :
    (s.setFile fd none).Serves c { b with point := .testing } where
  file := by
    intro fd' file
    rw [files_setFile] at file
    split at file
    · cases file
    · exact h.file fd' file
  device := by
    intro fd' path call file
    rw [files_setFile] at file
    split at file
    · cases file
    · rename_i other
      obtain ⟨n, has, same⟩ := h.device fd' path call file
      rw [holds] at has
      obtain rfl := Option.some.inj has
      exact absurd same other
  held := by
    intro fd' has
    cases has
  seated := by
    intro _
    obtain ⟨alive, _, seat, file⟩ := h.seated closed
    obtain ⟨path, call, device⟩ := h.held fd holds
    refine ⟨alive, ?_, seat, ?_⟩
    · intro same
      cases same
    · change (s.setFile fd _).files (s.clients b.slot).fd = _
      rw [files_setFile, if_neg, file]
      intro same
      rw [same, device] at file
      cases file
  gone := by
    intro closed'
    rw [show ((s.setFile fd none).links c).closed = false from closed] at closed'
    cases closed'
  leaving := by
    intro same
    cases same
  absent := h.absent
  accepted := h.accepted

/-- It closes the connection, and the slot has a descriptor that is not open. -/
theorem Serves.leaves (h : s.Serves c b) (closed : (s.links c).closed = false)
    (point : b.point = .leaving) :
    (s.close (s.clients b.slot).fd).Serves c { b with point := .clearing } := by
  obtain ⟨alive, _, seat, file⟩ := h.seated closed
  have closes : s.close (s.clients b.slot).fd =
      (s.setFile (s.clients b.slot).fd none).setLink c
        { s.links c with closed := true, inbox := [] } := by
    rw [close, file]
  have link : ((s.close (s.clients b.slot).fd).links c) =
      { s.links c with closed := true, inbox := [] } := by
    rw [closes, links_setLink_self]
  have files (fd : Int) : (s.close (s.clients b.slot).fd).files fd =
      if fd = (s.clients b.slot).fd then none else s.files fd := by
    rw [closes]
    exact files_setFile ..
  refine ⟨?_, ?_, ?_, ?_, ?_, ?_, ?_, ?_⟩
  · intro fd is
    rw [files] at is
    split at is
    · cases is
    · rename_i other
      exact absurd (h.file fd is).2.symm other
  · intro fd path call is
    rw [files] at is
    split at is
    · cases is
    · obtain ⟨n, has, _⟩ := h.device fd path call is
      rw [point] at has
      cases has
  · intro fd has
    cases has
  · intro open'
    rw [link] at open'
    cases open'
  · intro _
    rw [link]
    refine ⟨h.leaving point, .clearing rfl alive ?_⟩
    rw [close_clients]
    exact seat
  · intro same
    cases same
  · rw [closes]
    exact h.absent
  · rw [closes]
    exact h.accepted

/-- It gives the slot free. -/
theorem Serves.clears (h : s.Serves c b) (point : b.point = .clearing) :
    (s.setClient b.slot { s.clients b.slot with fd := -1, active := false }).Serves c
      { b with point := .testing } := by
  have closed : (s.links c).closed = true := by
    cases closed : (s.links c).closed with
    | true => rfl
    | false => exact absurd point (h.seated closed).2.1
  obtain ⟨hung, leaves⟩ := h.gone closed
  have alive := (leaves.of_clearing point).1
  refine ⟨?_, ?_, ?_, ?_, ?_, ?_, h.absent, h.accepted⟩
  · intro fd is
    exact absurd ((h.file fd is).1.symm.trans closed) Bool.false_ne_true
  · intro fd path call is
    obtain ⟨n, has, _⟩ := h.device fd path call is
    rw [point] at has
    cases has
  · intro fd has
    cases has
  · intro open'
    exact absurd (open'.symm.trans closed) Bool.false_ne_true
  · intro _
    exact ⟨hung, .testing rfl alive⟩
  · intro same
    cases same

/-- It tests the slot: its own, or a free one. -/
theorem Serves.tests (h : s.Serves c b) (point : b.point = .testing)
    (free : (s.links c).closed = true → (s.clients b.slot).fd < 0) :
    s.Serves c { b with
      point := .idle, cancelled := b.cancelled || decide ((s.clients b.slot).fd < 0) } := by
  cases closed : (s.links c).closed with
  | false =>
      obtain ⟨alive, _, seat⟩ := h.seated closed
      have same : (b.cancelled || decide ((s.clients b.slot).fd < 0)) = b.cancelled := by
        rw [decide_eq_false (not_lt.mpr seat.1), Bool.or_false]
      rw [same]
      refine h.moved closed ?_ ?_ ?_
      · intro same
        cases same
      · rw [point]
        rfl
      · intro same
        cases same
  | true =>
      obtain ⟨hung, _⟩ := h.gone closed
      refine ⟨h.file, ?_, ?_, ?_, ?_, ?_, h.absent, h.accepted⟩
      · intro fd path call is
        obtain ⟨n, has, _⟩ := h.device fd path call is
        rw [point] at has
        cases has
      · intro fd has
        cases has
      · intro open'
        exact absurd (open'.symm.trans closed) Bool.false_ne_true
      · intro _
        refine ⟨hung, .finished rfl ?_⟩
        rw [decide_eq_true (free closed), Bool.or_true]
      · intro same
        cases same

end Protocol
end LunaOS.Seatd
