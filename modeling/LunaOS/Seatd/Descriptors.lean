import LunaOS.Seatd.Custody
import LunaOS.Seatd.Exchange

/-!
Every step of the protocol is one connection's: it keeps the custody of that connection and
leaves the others untouched. So in every run whose tests after a disconnection find the slot
free, what the server has open is accounted for: the descriptors of the clients in its table,
of the connection that is being accepted, and of the devices that blocks are handing over.
-/
namespace LunaOS.Seatd

/-- A block at this point has a connection that is open. -/
def Point.midway : Point → Bool
  | .idle => false
  | .clearing => false
  | .testing => false
  | _ => true

namespace Protocol

variable {s s' : Protocol} {c d : Nat} {b b' : Block} {i : Fin maxClients} {cl : Client}
variable {stack : Fin msgSize → UInt8}

def actor (s : Protocol) : Action → Nat
  | .connect => s.connected
  | .call c _ | .write c _ | .receive c | .hangUp c | .work c _ _ => c
  | .accept _ => s.accepted
  | .finishAccept _ => (s.accepting.map Prod.fst).getD 0

/-- A step of connection `c`: it keeps its custody, takes no slot but a free one, and gives
up none but a cleared one. -/
structure Acts (c : Nat) (s s' : Protocol) : Prop where
  own : s'.Custody c
  others : ∀ d, d ≠ c → Untouched d s s'
  takes : ∀ b', s'.blocks c = some b' → s'.Owns c b' →
    (∃ b, s.blocks c = some b ∧ s.Owns c b ∧ b.slot = b'.slot) ∨ (s.clients b'.slot).fd < 0
  keeps : ∀ b, s.blocks c = some b → s.Owns c b →
    (∃ b', s'.blocks c = some b' ∧ s'.Owns c b' ∧ b'.slot = b.slot) ∨
      (s'.clients b.slot).fd < 0
  fills : ∀ i, 0 ≤ (s'.clients i).fd →
    0 ≤ (s.clients i).fd ∨ ∃ b', s'.blocks c = some b' ∧ s'.Owns c b' ∧ b'.slot = i
  counted : s'.accepted ≤ s'.connected

theorem Serves.closed_of_midway (h : s.Serves c b) (midway : b.point.midway = true) :
    (s.links c).closed = false := by
  cases closed : (s.links c).closed with
  | false => rfl
  | true =>
      cases (h.gone closed).2 with
      | clearing here _ _ | testing here _ | finished here _ =>
          rw [here] at midway
          cases midway

theorem Serves.closed_of_alive (h : s.Serves c b) (idle : b.point = .idle)
    (alive : b.cancelled = false) : (s.links c).closed = false := by
  cases closed : (s.links c).closed with
  | false => rfl
  | true =>
      cases (h.gone closed).2 with
      | clearing here _ _ | testing here _ =>
          rw [idle] at here
          cases here
      | finished _ dead => exact absurd (alive.symm.trans dead) Bool.false_ne_true

theorem view_setLink (s : Protocol) {l : Link} (closed : l.closed = (s.links c).closed)
    (hungUp : (s.links c).hungUp = true → l.hungUp = true) : View c s (s.setLink c l) :=
  { View.refl c s with
    closed := by
      rw [links_setLink_self]
      exact closed
    hungUp := by
      rw [links_setLink_self]
      exact hungUp }

theorem view_sendmsg (s : Protocol) (sock : Int) (r : Reply) : View c s (s.sendmsg sock r) := by
  unfold sendmsg
  split
  · rename_i d _
    dsimp only
    split
    · exact .refl c s
    · by_cases own : c = d
      · subst own
        exact view_setLink s rfl id
      · exact (untouched_setLink own s _).toView
  · exact .refl c s

theorem entry_ne_clearing (r : Option (UInt16 × List UInt8)) : Point.entry r ≠ .clearing := by
  intro same
  unfold Point.entry at same
  split at same
  · cases same
  · repeat' split at same
    all_goals cases same

theorem holds_entry (r : Option (UInt16 × List UInt8)) : (Point.entry r).holds = none := by
  unfold Point.entry
  split
  · rfl
  · repeat' split
    all_goals rfl

theorem entry_eq_leaving {r : Option (UInt16 × List UInt8)} (same : Point.entry r = .leaving) :
    r = none := by
  unfold Point.entry at same
  split at same
  · rfl
  · repeat' split at same
    all_goals cases same

theorem requestOf_eq_none {chunk : List UInt8} (none : requestOf stack (some chunk) = none) :
    chunk = [] := by
  cases chunk with
  | nil => rfl
  | cons x xs => cases none

/-- What `recv` does on the connection's own descriptor. -/
theorem recv_own {sock : Int} (file : s.files sock = some (.connection c))
    {out : Option (List UInt8)} (got : s.recv sock = some (out, s')) :
    ((s.links c).inbox = [] ∧ (s.links c).hungUp = true ∧ out = some [] ∧ s' = s) ∨
      (s.links c).inbox ≠ [] ∧ out = some ((s.links c).inbox.take msgSize) ∧
        s' = s.setLink c { s.links c with inbox := (s.links c).inbox.drop msgSize } := by
  rw [recv, file] at got
  dsimp only at got
  split at got
  · rename_i empty
    obtain ⟨hung, same⟩ := Option.ite_none_right_eq_some.mp got
    cases same
    exact Or.inl ⟨empty, hung, rfl, rfl⟩
  · rename_i full
    cases got
    exact Or.inr ⟨full, rfl, rfl⟩

/-- A step of the block leaves its slot its own, or has cleared it. -/
theorem acts_of_block (found : s.blocks c = some b) {u : Protocol} (slot : b'.slot = b.slot)
    (serves : u.Serves c b') (others : ∀ d, d ≠ c → Untouched d s u)
    (owns : (u.setBlock c b').Owns c b' → s.Owns c b)
    (keeps : s.Owns c b → (u.setBlock c b').Owns c b' ∨ (u.clients b.slot).fd < 0)
    (fills : ∀ i, 0 ≤ (u.clients i).fd → 0 ≤ (s.clients i).fd)
    (counted : u.accepted ≤ u.connected) : Acts c s (u.setBlock c b') := by
  have here : (u.setBlock c b').blocks c = some b' := blocks_setBlock_self ..
  refine ⟨?_, ?_, ?_, ?_, ?_, counted⟩
  · rw [custody_of_some here]
    exact { serves with }
  · exact fun d other => (others d other).trans (untouched_setBlock other u b')
  · intro b₁ found₁ owned
    obtain rfl := Option.some.inj (here.symm.trans found₁)
    exact Or.inl ⟨b, found, owns owned, slot.symm⟩
  · intro b₁ found₁ owned
    obtain rfl := Option.some.inj (found.symm.trans found₁)
    exact (keeps owned).imp_left fun owned' => ⟨b', here, owned', slot⟩
  · exact fun i seated => Or.inl (fills i seated)

/-- One of an open connection. -/
theorem acts_of_open_block (found : s.blocks c = some b) {u : Protocol} (slot : b'.slot = b.slot)
    (closed : (s.links c).closed = false) (serves : u.Serves c b')
    (others : ∀ d, d ≠ c → Untouched d s u)
    (keeps : (u.links c).closed = false ∨ b'.point = .clearing)
    (fills : ∀ i, (u.clients i).fd = (s.clients i).fd)
    (counts : u.accepted = s.accepted ∧ u.connected = s.connected)
    (counted : s.accepted ≤ s.connected) : Acts c s (u.setBlock c b') := by
  refine acts_of_block found slot serves others (fun _ => Or.inl closed)
    (fun _ => Or.inl keeps) ?_ ?_
  · intro i seated
    rw [← fills i]
    exact seated
  · rw [counts.1, counts.2]
    exact counted

theorem acts_of_recv (h : s.Sound) (found : s.blocks c = some b) (point : b.point = .idle)
    (alive : b.cancelled = false) {out : Option (List UInt8)} {u : Protocol}
    (got : s.recv (s.clients b.slot).fd = some (out, u)) :
    Acts c s (u.setBlock c { b with point := .entry (requestOf stack out) }) := by
  have serves := (h.custody c).serves found
  have closed := serves.closed_of_alive point alive
  obtain ⟨_, _, seat⟩ := serves.seated closed
  have goes (v : View c s u) (hung : requestOf stack out = none → (u.links c).hungUp = true) :
      u.Serves c { b with point := .entry (requestOf stack out) } := by
    refine (serves.view found v).moved (v.closed.trans closed) (entry_ne_clearing _) ?_ ?_
    · rw [holds_entry, point]
      rfl
    · exact fun leaving => hung (entry_eq_leaving leaving)
  rcases recv_own seat.2 got with ⟨_, hung, rfl, rfl⟩ | ⟨full, rfl, rfl⟩
  · exact acts_of_open_block found rfl closed (goes (.refl c u) fun _ => hung)
      (fun d _ => .refl d u) (Or.inl closed) (fun _ => rfl) ⟨rfl, rfl⟩ h.counted
  · have v : View c s (s.setLink c
        { s.links c with inbox := (s.links c).inbox.drop msgSize }) := view_setLink s rfl id
    refine acts_of_open_block found rfl closed (goes v ?_)
      (fun d other => untouched_setLink other s _) (Or.inl (v.closed.trans closed))
      (fun _ => rfl) ⟨rfl, rfl⟩ h.counted
    intro none
    cases inbox : (s.links c).inbox with
    | nil => exact absurd inbox full
    | cons x xs =>
        rw [inbox] at none
        cases requestOf_eq_none none

theorem acts_of_opening (h : s.Sound) (found : s.blocks c = some b) {path : List UInt8}
    (point : b.point = .opening path) {opened : Except Int Nat} {u : Protocol}
    (made : s.openDevice c path opened = some u) :
    Acts c s (u.setBlock c { b with point := .opened opened }) := by
  have serves := (h.custody c).serves found
  have closed := serves.closed_of_midway (by rw [point]; rfl)
  have empty : b.point.holds = none := by
    rw [point]
    rfl
  cases opened with
  | error errno =>
      obtain rfl := Option.some.inj made
      refine acts_of_open_block found rfl closed ?_
        (fun d other => untouched_recordOpening other s path _) (Or.inl closed) (fun _ => rfl)
        ⟨rfl, rfl⟩ h.counted
      have goes : s.Serves c { b with point := .replying (-errno) none } := by
        refine serves.moved closed ?_ empty.symm ?_ <;> intro same <;> cases same
      exact { goes with }
  | ok fd =>
      obtain ⟨unused, same⟩ := Option.ite_none_left_eq_some.mp made
      obtain rfl := Option.some.inj same
      rw [Bool.not_eq_true, Option.isSome_eq_false_iff, Option.isNone_iff_eq_none] at unused
      refine acts_of_open_block found rfl closed ?_ ?_ (Or.inl closed) (fun _ => rfl)
        ⟨rfl, rfl⟩ h.counted
      · exact { serves.opens closed empty unused path (s.links c).returned.length with }
      · intro d other
        refine (untouched_recordOpening other s path none).trans (untouched_setFile _ ?_ ?_)
        · intro g file
          exact absurd (unused.symm.trans file) (Option.some_ne_none g).symm
        · intro g file
          obtain rfl := Option.some.inj file
          exact other.symm

theorem acts_of_work (h : s.Sound) (found : s.blocks c = some b) {opened : Except Int Nat}
    (guard : s.LeaverFindsFree (.work c stack opened))
    (next : s.work c b stack opened = some s') : Acts c s s' := by
  have serves := (h.custody c).serves found
  obtain ⟨p, point, worked⟩ := work_cases next
  cases worked with
  | received alive got => exact acts_of_recv h found point alive got
  | called made => exact acts_of_opening h found point made
  | tracked fd =>
      have closed := serves.closed_of_midway (by rw [point]; rfl)
      have kept : ((s.clients b.slot).track fd).fd = (s.clients b.slot).fd := track_fd ..
      refine acts_of_open_block found rfl closed ?_
        (fun d _ => untouched_setClient s fun _ _ _ _ => kept) (Or.inl closed)
        (Slots.read_update_of_eq Client.fd kept) ⟨rfl, rfl⟩ h.counted
      refine (serves.view found (view_setClient s fun _ _ _ _ => kept)).moved closed ?_ ?_ ?_
      · intro same
        cases same
      · rw [point]
        rfl
      · intro same
        cases same
  | replied code fd =>
      have closed := serves.closed_of_midway (by rw [point]; rfl)
      have v : View c s (s.sendmsg (s.clients b.slot).fd
        ⟨code, fd.bind fun fd => s.files fd⟩) := view_sendmsg ..
      obtain ⟨_, _, seat⟩ := serves.seated closed
      refine acts_of_open_block found rfl closed ?_ ?_ (Or.inl (v.closed.trans closed))
        (fun i => by rw [sendmsg_clients]) (sendmsg_counts ..) h.counted
      · refine (serves.view found v).moved (v.closed.trans closed) ?_ ?_ ?_
        · cases fd <;> intro same <;> cases same
        · rw [point]
          cases fd <;> rfl
        · cases fd <;> intro same <;> cases same
      · intro d other
        refine untouched_sendmsg s _ fun g file => ?_
        obtain rfl := Option.some.inj (seat.2.symm.trans file)
        exact other.symm
  | released fd =>
      have closed := serves.closed_of_midway (by rw [point]; rfl)
      obtain ⟨path, call, file⟩ := serves.held fd (by rw [point]; rfl)
      rw [serves.close_held (by rw [point]; rfl)]
      refine acts_of_open_block found rfl closed (serves.releases closed (by rw [point]; rfl)) ?_
        (Or.inl closed) (fun _ => rfl) ⟨rfl, rfl⟩ h.counted
      intro d other
      refine untouched_setFile s (fun g is => ?_) fun _ same => by cases same
      obtain rfl := Option.some.inj (file.symm.trans is)
      exact other.symm
  | left =>
      have closed := serves.closed_of_midway (by rw [point]; rfl)
      obtain ⟨_, _, seat⟩ := serves.seated closed
      refine acts_of_open_block found rfl closed (serves.leaves closed point) ?_ (Or.inr rfl)
        (fun i => by rw [close_clients]) (close_counts ..) h.counted
      intro d other
      refine untouched_close s fun g is => ?_
      obtain rfl := Option.some.inj (seat.2.symm.trans is)
      exact other.symm
  | cleared =>
      refine acts_of_block found rfl (serves.clears point) ?_ (fun _ => Or.inr point) ?_ ?_
        h.counted
      · intro d other
        refine untouched_setClient s fun b₁ found₁ owns same => ?_
        exact absurd (h.alone d c b₁ b found₁ found owns (Or.inr point) same) other
      · intro _
        rw [clients_setClient_self]
        exact Or.inr (Int.negSucc_lt_zero 0)
      · intro i seated
        rw [clients_setClient] at seated
        split at seated
        · exact absurd seated (Int.not_le.mpr (Int.negSucc_lt_zero 0))
        · exact seated
  | tested =>
      refine acts_of_block found rfl (serves.tests point (guard b found point))
        (fun d _ => .refl d s) ?_ ?_ (fun _ seated => seated) h.counted
      · intro owns
        cases owns with
        | inl closed => exact Or.inl closed
        | inr same => cases same
      · intro owns
        cases owns with
        | inl closed => exact Or.inl (Or.inl closed)
        | inr same =>
            rw [point] at same
            cases same

/-! The steps of the clients, and `accept_client`. -/

theorem Sound.vacant_of_le (h : s.Sound) (later : s.accepted ≤ c) :
    s.blocks c = none ∧ s.Vacant c := by
  cases found : s.blocks c with
  | none => exact ⟨rfl, (h.custody c).vacant found⟩
  | some b =>
      have before := ((h.custody c).serves found).accepted
      omega

theorem acts_of_link (h : s.Sound) {l : Link} (closed : l.closed = (s.links c).closed)
    (hungUp : (s.links c).hungUp = true → l.hungUp = true) : Acts c s (s.setLink c l) where
  own := (h.custody c).view (view_setLink s closed hungUp) rfl
  others _ other := untouched_setLink other s l
  takes b' found owns := Or.inl ⟨b', found, ((view_setLink s closed hungUp).owns b').mp owns, rfl⟩
  keeps b found owns := Or.inl ⟨b, found, ((view_setLink s closed hungUp).owns b).mpr owns, rfl⟩
  fills _ seated := Or.inl seated
  counted := h.counted

/-- What concerns a connection without a block, before and after, concerns no slot. -/
theorem acts_of_vacant (before : s.blocks c = none) (after : s'.blocks c = none)
    (own : s'.Vacant c) (others : ∀ d, d ≠ c → Untouched d s s')
    (fills : ∀ i, (s'.clients i).fd = (s.clients i).fd)
    (counted : s'.accepted ≤ s'.connected) : Acts c s s' := by
  refine ⟨(custody_of_none after).mpr own, others, ?_, ?_, ?_, counted⟩
  · intro b' found
    exact absurd (after.symm.trans found) (Option.some_ne_none b').symm
  · intro b found
    exact absurd (before.symm.trans found) (Option.some_ne_none b).symm
  · intro i seated
    rw [fills i] at seated
    exact Or.inl seated

theorem acts_of_connect (h : s.Sound) :
    Acts s.connected s { s with connected := s.connected + 1 } := by
  obtain ⟨none, vacant⟩ := h.vacant_of_le h.counted
  refine acts_of_vacant none none { vacant with } ?_ (fun _ => rfl) (Nat.le_succ_of_le h.counted)
  exact fun d _ => ⟨{ View.refl d s with }, rfl, rfl, rfl⟩

theorem acts_of_accept (h : s.Sound) {cfd : Nat} (free : s.accepting = none)
    (waiting : s.accepted < s.connected) (unused : s.files cfd = none) :
    Acts s.accepted s { s.setFile cfd (some (.connection s.accepted)) with
      accepting := some (s.accepted, cfd), accepted := s.accepted + 1 } := by
  obtain ⟨none, vacant⟩ := h.vacant_of_le le_rfl
  refine acts_of_vacant none none ⟨?_, ?_, ?_, ?_⟩ ?_ (fun _ => rfl) waiting
  · intro fd file
    change (s.setFile cfd _).files fd = _ at file
    rw [files_setFile] at file
    split at file
    · rename_i same
      rw [same]
      exact ⟨vacant.fresh le_rfl, rfl⟩
    · have was := (vacant.file fd file).2
      rw [free] at was
      cases was
  · intro fd path call file
    change (s.setFile cfd _).files fd = _ at file
    rw [files_setFile] at file
    split at file
    · cases file
    · exact vacant.device fd path call file
  · intro fd is
    cases is
    refine ⟨Int.natCast_nonneg cfd, ?_, Nat.lt_succ_self _⟩
    change (s.setFile cfd _).files cfd = _
    rw [files_setFile_self]
  · intro later
    exact absurd later (Nat.not_succ_le_self _)
  · intro d other
    have same : Untouched d s (s.setFile cfd (some (.connection s.accepted))) := by
      refine untouched_setFile s ?_ ?_
      · intro g file
        rw [unused] at file
        cases file
      · intro g file
        cases file
        exact other.symm
    refine ⟨{ same.toView with accepting := ?_, accepted := ?_ }, same.block, same.link,
      same.openings⟩
    · intro fd
      rw [free]
      refine iff_of_false (fun is => ?_) (Option.some_ne_none _).symm
      cases is
      exact other rfl
    · exact ⟨fun lt => lt_of_le_of_ne (Nat.le_of_lt_succ lt) other, Nat.lt_succ_of_lt⟩

theorem Serves.owner_seat (h : s.Serves c b) (owns : s.Owns c b) :
    0 ≤ (s.clients b.slot).fd := by
  cases closed : (s.links c).closed with
  | false => exact (h.seated closed).2.2.1
  | true =>
      cases owns with
      | inl open' => exact absurd (open'.symm.trans closed) Bool.false_ne_true
      | inr clearing => exact ((h.gone closed).2.of_clearing clearing).2

theorem Sound.vacant_of_accepting (h : s.Sound) {cfd : Int}
    (arriving : s.accepting = some (c, cfd)) : s.blocks c = none ∧ s.Vacant c := by
  cases found : s.blocks c with
  | none => exact ⟨rfl, (h.custody c).vacant found⟩
  | some b => exact absurd arriving (((h.custody c).serves found).absent cfd)

theorem untouched_accepted {cfd : Int} (arriving : s.accepting = some (c, cfd)) (other : d ≠ c)
    {u : Protocol} (same : Untouched d s u) : Untouched d s { u with accepting := none } := by
  refine ⟨{ same.toView with accepting := ?_ }, same.block, same.link, same.openings⟩
  intro fd
  rw [arriving]
  refine iff_of_false (Option.some_ne_none _).symm fun is => ?_
  cases is
  exact other rfl

theorem acts_of_enroll (h : s.Sound) {cfd : Int} (arriving : s.accepting = some (c, cfd))
    (free : (s.clients i).fd < 0) (seat : cl.fd = cfd) :
    Acts c s { (s.setClient i cl).setBlock c { slot := i } with accepting := none } := by
  obtain ⟨none, vacant⟩ := h.vacant_of_accepting arriving
  obtain ⟨good, file, accepted⟩ := vacant.arriving cfd arriving
  have closed := (vacant.file cfd file).1
  have here : ((s.setClient i cl).setBlock c { slot := i }).blocks c =
      some ({ slot := i } : Block) :=
    blocks_setBlock_self ..
  have at_slot : ((s.setClient i cl).clients i).fd = cfd := by
    rw [clients_setClient_self, seat]
  refine ⟨?_, ?_, ?_, ?_, ?_, h.counted⟩
  · refine (custody_of_some (b := { slot := i }) ?_).mpr ?_
    · exact here
    refine ⟨?_, ?_, ?_, ?_, ?_, ?_, ?_, accepted⟩
    · intro fd is
      obtain ⟨closed, same⟩ := vacant.file fd is
      cases arriving.symm.trans same
      exact ⟨closed, at_slot⟩
    · intro fd path call is
      exact absurd is (vacant.device fd path call)
    · intro fd has
      cases has
    · intro _
      refine ⟨rfl, ?_, ?_, ?_⟩
      · intro same
        cases same
      · exact at_slot.symm ▸ good
      · exact (congrArg s.files at_slot).trans file
    · intro closed'
      exact absurd (closed.symm.trans closed') Bool.false_ne_true
    · intro same
      cases same
    · intro fd
      exact (Option.some_ne_none _).symm
  · intro d other
    refine untouched_accepted arriving other ((untouched_setClient s ?_).trans
      (untouched_setBlock other _ _))
    intro b found owns same
    have seated := ((h.custody d).serves found).owner_seat owns
    rw [same] at seated
    omega
  · intro b' found' _
    obtain rfl := Option.some.inj (here.symm.trans found')
    exact Or.inr free
  · intro b found
    exact absurd (none.symm.trans found) (Option.some_ne_none b).symm
  · intro j seated
    rw [show ({ (s.setClient i cl).setBlock c { slot := i } with accepting := .none } :
      Protocol).clients j = _ from clients_setClient s i j cl] at seated
    split at seated
    · rename_i same
      exact Or.inr ⟨{ slot := i }, here, Or.inl closed, same.symm⟩
    · exact Or.inl seated

theorem acts_of_turnAway (h : s.Sound) {cfd : Int} (arriving : s.accepting = some (c, cfd)) :
    Acts c s { s.close cfd with accepting := none } := by
  obtain ⟨none, vacant⟩ := h.vacant_of_accepting arriving
  obtain ⟨_, file, accepted⟩ := vacant.arriving cfd arriving
  have closes : s.close cfd =
      (s.setFile cfd .none).setLink c { s.links c with closed := true, inbox := [] } := by
    rw [close, file]
  have blocks : (s.close cfd).blocks = s.blocks := by
    rw [closes]
    rfl
  have files (fd : Int) : (s.close cfd).files fd = if fd = cfd then .none else s.files fd := by
    rw [closes]
    exact files_setFile ..
  refine acts_of_vacant none ((congrFun blocks c).trans none) ⟨?_, ?_, ?_, ?_⟩ ?_ ?_ ?_
  · intro fd is
    rw [show ({ s.close cfd with accepting := .none } : Protocol).files fd = _ from files fd] at is
    split at is
    · cases is
    · rename_i other
      cases arriving.symm.trans (vacant.file fd is).2
      exact absurd rfl other
  · intro fd path call is
    rw [show ({ s.close cfd with accepting := .none } : Protocol).files fd = _ from files fd] at is
    split at is
    · cases is
    · exact vacant.device fd path call is
  · intro fd is
    cases is
  · intro later
    rw [show ({ s.close cfd with accepting := .none } : Protocol).accepted = s.accepted from
      (close_counts ..).1] at later
    omega
  · intro d other
    refine untouched_accepted arriving other (untouched_close s fun g is => ?_)
    obtain rfl := Option.some.inj (file.symm.trans is)
    exact other.symm
  · exact fun i => congrArg Client.fd (congrFun (close_clients s cfd) i)
  · refine le_of_eq_of_le (close_counts s cfd).1 (le_of_le_of_eq h.counted ?_)
    exact (close_counts s cfd).2.symm

theorem freeSlot_free (scan : s.freeSlot = some i) : (s.clients i).fd < 0 :=
  of_decide_eq_true (Fin.find?_eq_some_iff.mp scan).1

theorem acts_of_finishAccept (h : s.Sound) {cfd : Int} (arriving : s.accepting = some (c, cfd))
    (pid : Int) : Acts c s (s.finishAccept c cfd pid) := by
  unfold finishAccept
  cases scan : s.freeSlot with
  | some i =>
      let cl := { s.clients i with fd := cfd, pid := pid, active := true, heldCount := 0 }
      have seat : cl.fd = cfd := rfl
      exact acts_of_enroll h arriving (freeSlot_free scan) seat
  | none => exact acts_of_turnAway h arriving

theorem step_finishAccept {pid : Int} (next : s.step (.finishAccept pid) = some s') :
    ∃ cfd, s.accepting = some (s.actor (.finishAccept pid), cfd) ∧
      s' = s.finishAccept (s.actor (.finishAccept pid)) cfd pid := by
  simp only [step, Option.map_eq_some_iff] at next
  obtain ⟨⟨c, cfd⟩, arriving, rfl⟩ := next
  have who : s.actor (.finishAccept pid) = c := by
    rw [actor, arriving]
    rfl
  rw [who]
  exact ⟨cfd, arriving, rfl⟩

theorem step_acts (h : s.Sound) {a : Action} (guard : s.LeaverFindsFree a)
    (next : s.step a = some s') : Acts (s.actor a) s s' := by
  cases a with
  | connect =>
      cases next
      exact acts_of_connect h
  | call c _ | write c _ | receive c | hangUp c =>
      obtain ⟨l, rfl, closed, hungUp⟩ := step_client rfl next
      exact acts_of_link h closed hungUp
  | accept cfd =>
      obtain ⟨ready, same⟩ := Option.ite_none_right_eq_some.mp next
      obtain rfl := Option.some.inj same
      simp only [Bool.and_eq_true, Option.isNone_iff_eq_none, decide_eq_true_eq] at ready
      exact acts_of_accept h ready.1.1 ready.1.2 ready.2
  | finishAccept pid =>
      obtain ⟨cfd, arriving, rfl⟩ := step_finishAccept next
      exact acts_of_finishAccept h arriving pid
  | work c stack opened =>
      obtain ⟨b, found, worked⟩ := Option.bind_eq_some_iff.mp next
      exact acts_of_work h found guard worked

theorem Sound.acts (h : s.Sound) (acts : Acts c s s') : s'.Sound where
  custody := by
    intro d
    by_cases own : d = c
    · exact own ▸ acts.own
    · have same := acts.others d own
      exact (h.custody d).view same.toView same.block
  counted := acts.counted
  occupied := by
    intro i seated
    have keeps {d : Nat} {b : Block} (found : s.blocks d = some b) (owns : s.Owns d b)
        (slot : b.slot = i) : ∃ d b, s'.blocks d = some b ∧ s'.Owns d b ∧ b.slot = i := by
      by_cases own : d = c
      · subst own
        rcases acts.keeps b found owns with ⟨b', found', owns', same⟩ | freed
        · exact ⟨d, b', found', owns', same.trans slot⟩
        · rw [slot] at freed
          omega
      · have same := acts.others d own
        exact ⟨d, b, same.block.trans found, (same.toView.owns b).mpr owns, slot⟩
    rcases acts.fills i seated with before | ⟨b', found', owns', slot⟩
    · obtain ⟨d, b, found, owns, slot⟩ := h.occupied i before
      exact keeps found owns slot
    · exact ⟨c, b', found', owns', slot⟩
  alone := by
    -- an owner but `c` was one before, and so no slot that was free is its own
    have before {d : Nat} {b : Block} (other : d ≠ c) (found : s'.blocks d = some b)
        (owns : s'.Owns d b) : s.blocks d = some b ∧ s.Owns d b := by
      have same := acts.others d other
      exact ⟨same.block.symm.trans found, (same.toView.owns b).mp owns⟩
    have apart {d : Nat} {b b' : Block} (other : d ≠ c) (found : s'.blocks d = some b)
        (found' : s'.blocks c = some b') (owns : s'.Owns d b) (owns' : s'.Owns c b') :
        b.slot ≠ b'.slot := by
      obtain ⟨found, owns⟩ := before other found owns
      intro slot
      rcases acts.takes b' found' owns' with ⟨b₀, found₀, owns₀, same⟩ | free
      · exact other (h.alone d c b b₀ found found₀ owns owns₀ (slot.trans same.symm))
      · have seat := ((h.custody d).serves found).owner_seat owns
        rw [slot] at seat
        omega
    intro d e b b' found found' owns owns' slot
    by_cases first : d = c
    · by_cases second : e = c
      · exact first.trans second.symm
      · subst first
        exact absurd slot.symm (apart second found' found owns' owns)
    · by_cases second : e = c
      · subst second
        exact absurd slot (apart first found found' owns owns')
      · obtain ⟨found, owns⟩ := before first found owns
        obtain ⟨found', owns'⟩ := before second found' owns'
        exact h.alone d e b b' found found' owns owns' slot

theorem sound_start : Sound {} where
  custody := by
    intro c
    refine (custody_of_none ?_).mpr ⟨?_, ?_, ?_, ?_⟩
    · rfl
    · intro fd is
      cases is
    · intro fd path call is
      cases is
    · intro fd is
      cases is
    · intro _
      rfl
  alone := by
    intro c c' b b' found
    cases found
  occupied := by
    intro i seated
    exact absurd seated (Int.not_le.mpr (Int.negSucc_lt_zero 0))
  counted := Nat.le_refl 0

theorem run_sound {as : List Action} (ran : Runs.run step {} as = some s)
    (guarded : ∀ t a, Runs.Takes step {} as t a → t.LeaverFindsFree a) : s.Sound :=
  Runs.run_invariant_takes (fun _ _ _ h guard next => h.acts (step_acts h guard next))
    sound_start ran guarded

/-- `accept_client` has nothing in hand, and no block has a step to take. -/
structure AtRest (s : Protocol) : Prop where
  accepting : s.accepting = none
  stuck : ∀ c stack opened, s.step (.work c stack opened) = none

/-- Every descriptor that is open has its use, and every slot that is taken: nothing of a
client that has left stays behind. -/
structure Accounted (s : Protocol) : Prop where
  connection : ∀ fd c, s.files fd = some (.connection c) →
    s.accepting = some (c, fd) ∨
      ∃ b, s.blocks c = some b ∧ b.cancelled = false ∧ (s.clients b.slot).fd = fd
  device : ∀ fd path c call, s.files fd = some (.device path c call) →
    ∃ b n, s.blocks c = some b ∧ b.cancelled = false ∧ b.point.holds = some n ∧ fd = n
  slot : ∀ i, 0 ≤ (s.clients i).fd → ∃! c, ∃ b, s.blocks c = some b ∧ b.cancelled = false ∧
    b.slot = i ∧ (s.Seated c b ∨ b.point = .clearing)
  rest : s.accepting = none → (∀ c b, s.blocks c = some b → b.point = .idle) →
    ∀ fd, (∃ f, s.files fd = some f) ↔ 0 ≤ fd ∧ ∃ i, (s.clients i).fd = fd
  left : s.AtRest → (∀ c < s.connected, (s.links c).hungUp = true) →
    (∀ fd, s.files fd = none) ∧ ∀ i, (s.clients i).fd < 0

/-- A block that has its slot is live. -/
theorem Serves.alive_of_owns (h : s.Serves c b) (owns : s.Owns c b) : b.cancelled = false := by
  cases closed : (s.links c).closed with
  | false => exact (h.seated closed).1
  | true =>
      have clearing := owns.resolve_left fun open' => by rw [closed] at open'; cases open'
      exact ((h.gone closed).2.of_clearing clearing).1

theorem Sound.connection (h : s.Sound) {fd : Int} (file : s.files fd = some (.connection c)) :
    s.accepting = some (c, fd) ∨
      ∃ b, s.blocks c = some b ∧ b.cancelled = false ∧ (s.clients b.slot).fd = fd := by
  have custody := h.custody c
  cases found : s.blocks c with
  | none => exact Or.inl ((custody.vacant found).file fd file).2
  | some b =>
      obtain ⟨closed, seat⟩ := (custody.serves found).file fd file
      exact Or.inr ⟨b, rfl, ((custody.serves found).seated closed).1, seat⟩

theorem midway_of_holds {p : Point} {fd : Nat} (holds : p.holds = some fd) : p.midway = true := by
  cases p with
  | tracking _ | replying _ _ | releasing _ => rfl
  | idle | opening _ | leaving | clearing | testing => cases holds

theorem Sound.device (h : s.Sound) {fd : Int} {path : List UInt8} {call : Nat}
    (file : s.files fd = some (.device path c call)) :
    ∃ b n, s.blocks c = some b ∧ b.cancelled = false ∧ b.point.holds = some n ∧ fd = n := by
  have custody := h.custody c
  cases found : s.blocks c with
  | none => exact absurd file ((custody.vacant found).device fd path call)
  | some b =>
      have serves := custody.serves found
      obtain ⟨n, holds, same⟩ := serves.device fd path call file
      have closed := serves.closed_of_midway (midway_of_holds holds)
      exact ⟨b, n, rfl, (serves.seated closed).1, holds, same⟩

theorem Sound.slot (h : s.Sound) (seated : 0 ≤ (s.clients i).fd) :
    ∃! c, ∃ b, s.blocks c = some b ∧ b.cancelled = false ∧ b.slot = i ∧
      (s.Seated c b ∨ b.point = .clearing) := by
  obtain ⟨c, b, found, owns, slot⟩ := h.occupied i seated
  have serves := (h.custody c).serves found
  refine ⟨c, ⟨b, found, serves.alive_of_owns owns, slot, ?_⟩, ?_⟩
  · exact owns.imp_left fun closed => (serves.seated closed).2.2
  · rintro d ⟨b', found', _, slot', whose⟩
    refine h.alone d c b' b found' found ?_ owns (slot'.trans slot.symm)
    exact whose.imp_left fun seat =>
      (((h.custody d).serves found').file _ seat.2).1

/-- The table says what is open while nothing is under way. -/
theorem Sound.rest (h : s.Sound) (free : s.accepting = none)
    (idle : ∀ c b, s.blocks c = some b → b.point = .idle) (fd : Int) :
    (∃ f, s.files fd = some f) ↔ 0 ≤ fd ∧ ∃ i, (s.clients i).fd = fd := by
  constructor
  · rintro ⟨f, file⟩
    cases f with
    | connection c =>
        rcases h.connection file with arriving | ⟨b, found, _, seat⟩
        · rw [free] at arriving
          cases arriving
        · have serves := (h.custody c).serves found
          have seated := (serves.seated (serves.file fd file).1).2.2.1
          exact ⟨seat ▸ seated, b.slot, seat⟩
    | device path c call =>
        obtain ⟨b, n, found, _, holds, _⟩ := h.device file
        rw [idle c b found] at holds
        cases holds
  · rintro ⟨good, i, rfl⟩
    obtain ⟨c, ⟨b, found, _, rfl, whose⟩, _⟩ := h.slot good
    rcases whose with seat | clearing
    · exact ⟨_, seat.2⟩
    · rw [idle c b found] at clearing
      cases clearing

theorem AtRest.idle (h : s.AtRest) (found : s.blocks c = some b) : b.point = .idle := by
  have stuck := h.stuck c (fun _ => 0) (.error 0)
  rw [step, found, Option.bind_some, work] at stuck
  cases point : b.point with
  | idle => rfl
  | opening _ | tracking _ | replying _ _ | releasing _ | leaving | clearing | testing =>
      rw [point] at stuck
      cases stuck

/-- The source of a client that has left is cancelled before its block rests. -/
theorem AtRest.cancelled (rest : s.AtRest) (h : s.Sound) (found : s.blocks c = some b)
    (hung : (s.links c).hungUp = true) : b.cancelled = true := by
  have serves := (h.custody c).serves found
  have idle := rest.idle found
  cases alive : b.cancelled with
  | true => rfl
  | false =>
      have file := (serves.seated (serves.closed_of_alive idle alive)).2.2.2
      have stuck := rest.stuck c (fun _ => 0) (.error 0)
      rw [step, found, Option.bind_some, work, idle] at stuck
      dsimp only at stuck
      rw [alive, if_neg Bool.false_ne_true, Option.map_eq_none_iff, recv, file] at stuck
      dsimp only at stuck
      rw [if_pos hung] at stuck
      split at stuck <;> cases stuck

theorem Sound.left (h : s.Sound) (rest : s.AtRest)
    (gone : ∀ c < s.connected, (s.links c).hungUp = true) :
    (∀ fd, s.files fd = none) ∧ ∀ i, (s.clients i).fd < 0 := by
  have dead {c : Nat} {b : Block} (found : s.blocks c = some b) : b.cancelled = true := by
    have admitted := ((h.custody c).serves found).accepted
    exact rest.cancelled h found (gone c (admitted.trans_le h.counted))
  have alive {c : Nat} {b : Block} (found : s.blocks c = some b) : b.cancelled ≠ false :=
    fun live => Bool.false_ne_true (live.symm.trans (dead found))
  refine ⟨fun fd => ?_, fun i => ?_⟩
  · cases file : s.files fd with
    | none => rfl
    | some f =>
        cases f with
        | connection c =>
            rcases h.connection file with arriving | ⟨b, found, live, _⟩
            · rw [rest.accepting] at arriving
              cases arriving
            · exact absurd live (alive found)
        | device path c call =>
            obtain ⟨b, n, found, live, _⟩ := h.device file
            exact absurd live (alive found)
  · by_contra seated
    obtain ⟨c, ⟨b, found, live, _⟩, _⟩ := h.slot (Int.not_lt.mp seated)
    exact alive found live

theorem Sound.accounted (h : s.Sound) : s.Accounted where
  connection _ _ := h.connection
  device _ _ _ _ := h.device
  slot _ := h.slot
  rest := h.rest
  left := h.left

/-- In every run of the protocol, whatever its clients write and whenever they leave, in
which every test after a disconnection finds the slot free, all that the server has open is
accounted for. -/
theorem descriptors_accounted_for {as : List Action} (ran : Runs.run step {} as = some s)
    (guarded : ∀ t a, Runs.Takes step {} as t a → t.LeaverFindsFree a) : s.Accounted :=
  (run_sound ran guarded).accounted

/-- The block of `c` takes `n` steps. -/
def works (c n : Nat) (opened : Except Int Nat) : List Action :=
  List.replicate n (.work c (fun _ => 0) opened)

/-- Two clients are admitted, and ask for a device each. -/
def asking : List Action :=
  [.connect, .connect, .accept 5, .call 0 (openRequest (bytes "/dev/dri/card0")).toSeatdMsg,
    .finishAccept 100, .accept 6, .finishAccept 101,
    .call 1 (openRequest (bytes "/dev/input/event0")).toSeatdMsg]

/-- Their blocks run beside each other; the first client leaves. -/
def serving : List Action :=
  works 0 2 (.ok 7) ++ works 1 4 (.ok 8) ++ works 0 2 (.ok 7) ++
  [.receive 1, .receive 0, .hangUp 0] ++ works 1 2 (.ok 8) ++ works 0 6 (.ok 7)

theorem descriptors_accounted_for_two_clients :
    ∃ s, Runs.run step {} (asking ++ serving) = some s ∧ s.files 6 = some (.connection 1) ∧
      s.files 5 = none ∧ s.Accounted := by
  have ends : (Runs.run step {} (asking ++ serving)).map (fun s => (s.files 6, s.files 5)) =
      some (some (.connection 1), none) := by decide +kernel
  have guarded : Runs.allTaken step LeaverFindsFree {} (asking ++ serving) = true := by
    decide +kernel
  obtain ⟨s, ran, final⟩ := Option.map_eq_some_iff.mp ends
  obtain ⟨stays, gone⟩ := Prod.mk.inj final
  exact ⟨s, ran, stays, gone,
    descriptors_accounted_for ran fun _ _ taken => Runs.takes_of_allTaken guarded taken⟩

end Protocol
end LunaOS.Seatd
