import LunaOS.Seatd.Descriptors

/-!
Which reply a client gets. `Stage` follows one call through the message that waits to be
read, the block that serves it and the reply that waits to be received; it is nowhere else,
and in none of them twice. What a call returns is then the answer to its own message, with
the device that was opened for it, whatever the blocks of the other clients do meanwhile and
whatever those clients write.
-/
namespace LunaOS.Seatd

def SeatdMsg.path (m : SeatdMsg) : List UInt8 :=
  cString m.terminate.data

/-- The types that the switch of `handle_client_message` has a case for. -/
def SeatdMsg.Known (m : SeatdMsg) : Prop :=
  m.type = msgOpenDevice ∨ m.type = msgCloseDevice ∨ m.type = msgEnableSeat ∨
    m.type = msgDisableSeat

def Opening.reply (o : Opening) : Reply :=
  match o.errno with
  | none => ⟨0, some (.device o.path o.conn o.call)⟩
  | some errno => ⟨-errno, none⟩

/-- A block that has a request to reply to. -/
def Point.busy : Point → Bool
  | .opening _ => true
  | .tracking _ => true
  | .replying _ _ => true
  | _ => false

theorem Point.midway_of_busy {p : Point} (busy : p.busy = true) : p.midway = true := by
  cases p with
  | opening _ | tracking _ | replying _ _ => rfl
  | idle | releasing _ | leaving | clearing | testing => cases busy

/-- The end of `seatd_open_device`, with the file that the descriptor refers to. -/
def deviceOf (reply : Option Reply) : Option File :=
  match reply with
  | none => none
  | some r => if r.code ≠ 0 then none else r.file

namespace Protocol

/-- `r` is the reply to `m`, the message of call number `call` on connection `c`; an
OPEN_DEVICE that passes the check has been opened for that call. -/
def Answers (s : Protocol) (c call : Nat) (m : SeatdMsg) (r : Reply) : Prop :=
  if m.type = msgOpenDevice then
    if refused m.path then r = ⟨-eperm, none⟩
    else ∃ o ∈ s.openings, o.conn = c ∧ o.call = call ∧ o.path = m.path ∧ r = o.reply
  else m.Known ∧ r = ⟨0, none⟩

/-- Nothing has been opened for the call that comes next, or is being made. -/
def Unopened (s : Protocol) (c : Nat) : Prop :=
  ∀ o ∈ s.openings, o.conn = c → o.call < (s.links c).returned.length

def Unbusy (s : Protocol) (c : Nat) : Prop :=
  ∀ b, s.blocks c = some b → b.point.busy = false

def Serving (s : Protocol) (c : Nat) (m : SeatdMsg) : Point → Prop
  | .opening path => m.type = msgOpenDevice ∧ path = m.path ∧ refused m.path = false ∧
      s.Unopened c
  | .tracking fd => s.Answers c (s.links c).returned.length m ⟨0, s.files fd⟩
  | .replying code fd =>
      s.Answers c (s.links c).returned.length m ⟨code, fd.bind fun fd => s.files fd⟩
  | _ => False

/-- The client of `c` writes what is no call. -/
def Action.strays (c : Nat) : Action → Bool
  | .write d _ => d = c
  | _ => false

/-- Where the call of the client is. -/
inductive Stage (s : Protocol) (c : Nat) : Prop
  | quiet (waiting : (s.links c).waiting = none) (inbox : (s.links c).inbox = [])
      (outbox : (s.links c).outbox = []) (unbusy : s.Unbusy c) (unopened : s.Unopened c)
  | sent (m : SeatdMsg) (waiting : (s.links c).waiting = some m)
      (inbox : (s.links c).inbox = m.toBytes) (outbox : (s.links c).outbox = [])
      (closed : (s.links c).closed = false) (unbusy : s.Unbusy c) (unopened : s.Unopened c)
  | served (m : SeatdMsg) (b : Block) (waiting : (s.links c).waiting = some m)
      (inbox : (s.links c).inbox = []) (outbox : (s.links c).outbox = [])
      (found : s.blocks c = some b) (serving : s.Serving c m b.point)
  | answered (m : SeatdMsg) (r : Reply) (waiting : (s.links c).waiting = some m)
      (inbox : (s.links c).inbox = []) (outbox : (s.links c).outbox = [r]) (unbusy : s.Unbusy c)
      (answers : s.Answers c (s.links c).returned.length m r)
  | lost (m : SeatdMsg) (waiting : (s.links c).waiting = some m)
      (inbox : (s.links c).inbox = []) (outbox : (s.links c).outbox = []) (unbusy : s.Unbusy c)
      (why : ¬ m.Known ∨ (s.links c).hungUp = true ∨ (s.links c).closed = true)

structure Flow (s : Protocol) (c : Nat) : Prop where
  stage : s.Stage c
  answers : ∀ call m r, (s.links c).returned[call]? = some (m, some r) → s.Answers c call m r
  ended : ∀ m, (m, none) ∈ (s.links c).returned →
    s.blocks c = none ∧ (s.links c).closed = true
  once : ∀ call, (s.openings.filter fun o => o.conn = c ∧ o.call = call).length ≤ 1
  bounded : ∀ o ∈ s.openings, o.conn = c → o.call ≤ (s.links c).returned.length

variable {s s' : Protocol} {c d : Nat} {b b' : Block} {m : SeatdMsg} {r : Reply}
variable {stack : Fin msgSize → UInt8}

/-! Steps of others. -/

theorem Untouched.mem_openings (same : Untouched c s s') {o : Opening} (own : o.conn = c) :
    o ∈ s'.openings ↔ o ∈ s.openings := by
  have filtered := congrArg (o ∈ ·) same.openings
  simpa [own] using filtered

theorem Untouched.answers (same : Untouched c s s') {call : Nat} :
    s'.Answers c call m r ↔ s.Answers c call m r := by
  unfold Answers
  split
  · split
    · exact Iff.rfl
    · refine exists_congr fun o => and_congr_left fun facts => ?_
      exact same.mem_openings facts.1
  · exact Iff.rfl

theorem Untouched.unopened (same : Untouched c s s') : s'.Unopened c ↔ s.Unopened c := by
  unfold Unopened
  rw [same.link]
  refine forall_congr' fun o => ⟨fun h mem own => ?_, fun h mem own => ?_⟩
  · exact h ((same.mem_openings own).mpr mem) own
  · exact h ((same.mem_openings own).mp mem) own

theorem Untouched.unbusy (same : Untouched c s s') : s'.Unbusy c ↔ s.Unbusy c := by
  unfold Unbusy
  rw [same.block]

theorem Untouched.heldFile (same : Untouched c s s') (serves : s.Serves c b) {fd : Nat}
    (holds : b.point.holds = some fd) : s'.files fd = s.files fd := by
  obtain ⟨path, call, file⟩ := serves.held fd holds
  rw [file]
  exact (same.file fd _ rfl).mpr file

theorem Untouched.serving (same : Untouched c s s') (serves : s.Serves c b)
    (serving : s.Serving c m b.point) : s'.Serving c m b.point := by
  cases point : b.point with
  | opening path =>
      rw [point] at serving
      exact ⟨serving.1, serving.2.1, serving.2.2.1, same.unopened.mpr serving.2.2.2⟩
  | tracking fd =>
      rw [point] at serving
      have file : s'.files fd = s.files fd := same.heldFile serves (by rw [point]; rfl)
      rw [Serving, same.link, same.answers, file]
      exact serving
  | replying code fd =>
      rw [point] at serving
      rw [Serving, same.link, same.answers]
      cases fd with
      | none => exact serving
      | some fd =>
          have file : s'.files fd = s.files fd := same.heldFile serves (by rw [point]; rfl)
          rw [Option.bind_some, file]
          exact serving
  | idle | releasing fd | leaving | clearing | testing =>
      rw [point] at serving
      exact serving.elim

theorem Stage.untouched (h : s.Stage c) (custody : s.Custody c) (same : Untouched c s s') :
    s'.Stage c := by
  have link := same.link
  cases h with
  | quiet waiting inbox outbox unbusy unopened =>
      exact .quiet (link ▸ waiting) (link ▸ inbox) (link ▸ outbox) (same.unbusy.mpr unbusy)
        (same.unopened.mpr unopened)
  | sent m waiting inbox outbox closed unbusy unopened =>
      exact .sent m (link ▸ waiting) (link ▸ inbox) (link ▸ outbox) (link ▸ closed)
        (same.unbusy.mpr unbusy) (same.unopened.mpr unopened)
  | served m b waiting inbox outbox found serving =>
      exact .served m b (link ▸ waiting) (link ▸ inbox) (link ▸ outbox)
        (same.block.trans found) (same.serving (custody.serves found) serving)
  | answered m r waiting inbox outbox unbusy answers =>
      refine .answered m r (link ▸ waiting) (link ▸ inbox) (link ▸ outbox)
        (same.unbusy.mpr unbusy) ?_
      rw [link]
      exact same.answers.mpr answers
  | lost m waiting inbox outbox unbusy why =>
      refine .lost m (link ▸ waiting) (link ▸ inbox) (link ▸ outbox) (same.unbusy.mpr unbusy) ?_
      rw [link]
      exact why

theorem Flow.untouched (h : s.Flow c) (custody : s.Custody c) (same : Untouched c s s') :
    s'.Flow c where
  stage := h.stage.untouched custody same
  answers := by
    intro call m r is
    rw [same.link] at is
    exact same.answers.mpr (h.answers call m r is)
  ended := by
    rw [same.link, same.block]
    exact h.ended
  once := by
    intro call
    have split (os : List Opening) : (os.filter fun o => o.conn = c ∧ o.call = call) =
        (os.filter fun o => o.conn = c).filter fun o => o.call = call := by
      rw [List.filter_filter]
      refine List.filter_congr fun o _ => ?_
      simp [Bool.and_comm]
    rw [split, same.openings, ← split]
    exact h.once call
  bounded := by
    intro o mem own
    rw [same.link]
    exact h.bounded o ((same.mem_openings own).mp mem) own

/-! Steps that serve no request. -/

theorem Answers.mono {call : Nat} (h : s.Answers c call m r)
    (grown : ∀ o ∈ s.openings, o ∈ s'.openings) : s'.Answers c call m r := by
  unfold Answers at h ⊢
  split
  · rename_i device
    rw [if_pos device] at h
    split
    · rename_i blocked
      rw [if_pos blocked] at h
      exact h
    · rename_i passed
      rw [if_neg passed] at h
      obtain ⟨o, mem, facts⟩ := h
      exact ⟨o, grown o mem, facts⟩
  · rename_i other
    rw [if_neg other] at h
    exact h

theorem Serving.busy {p : Point} (serving : s.Serving c m p) : p.busy = true := by
  cases p with
  | opening _ | tracking _ | replying _ _ => rfl
  | idle | releasing _ | leaving | clearing | testing => exact serving.elim

/-- What the calls that returned have got, where the calls and the opens are as before. -/
theorem Flow.restage (h : s.Flow c) (stage : s'.Stage c)
    (returned : (s'.links c).returned = (s.links c).returned) (openings : s'.openings = s.openings)
    (ended : s.blocks c = none ∧ (s.links c).closed = true →
      s'.blocks c = none ∧ (s'.links c).closed = true) : s'.Flow c where
  stage := stage
  answers := by
    intro call m r is
    rw [returned] at is
    refine (h.answers call m r is).mono fun o mem => ?_
    rw [openings]
    exact mem
  ended := by
    intro m is
    rw [returned] at is
    exact ended (h.ended m is)
  once := by
    rw [openings]
    exact h.once
  bounded := by
    rw [openings, returned]
    exact h.bounded

/-- A connection that has a block has ended no call. -/
theorem Flow.restage_block (h : s.Flow c) (found : s.blocks c = some b) (stage : s'.Stage c)
    (returned : (s'.links c).returned = (s.links c).returned)
    (openings : s'.openings = s.openings) : s'.Flow c := by
  refine h.restage stage returned openings fun ended => ?_
  exact absurd (ended.1.symm.trans found) (Option.some_ne_none b).symm

theorem Unopened.same (h : s.Unopened c) (openings : s'.openings = s.openings)
    (returned : (s'.links c).returned = (s.links c).returned) : s'.Unopened c := by
  rw [Unopened, openings, returned]
  exact h

/-- Neither before nor after has the block a request in hand. -/
theorem Stage.unserved (h : s.Stage c) (before : s.Unbusy c) (after : s'.Unbusy c)
    (link : s'.links c = s.links c) (openings : s'.openings = s.openings) : s'.Stage c := by
  cases h with
  | quiet waiting inbox outbox _ unopened =>
      exact .quiet (link ▸ waiting) (link ▸ inbox) (link ▸ outbox) after
        (unopened.same openings (by rw [link]))
  | sent m waiting inbox outbox closed _ unopened =>
      exact .sent m (link ▸ waiting) (link ▸ inbox) (link ▸ outbox) (link ▸ closed) after
        (unopened.same openings (by rw [link]))
  | served m b _ _ _ found serving =>
      exact absurd ((before b found).symm.trans serving.busy) Bool.false_ne_true
  | answered m r waiting inbox outbox _ answers =>
      refine .answered m r (link ▸ waiting) (link ▸ inbox) (link ▸ outbox) after ?_
      rw [link]
      refine answers.mono fun o mem => ?_
      rw [openings]
      exact mem
  | lost m waiting inbox outbox _ why =>
      refine .lost m (link ▸ waiting) (link ▸ inbox) (link ▸ outbox) after ?_
      rw [link]
      exact why

/-- The server closes its end: a message that it has not read is lost. -/
theorem Stage.closed (h : s.Stage c) (before : s.Unbusy c) (after : s'.Unbusy c)
    (link : s'.links c = { s.links c with closed := true, inbox := [] })
    (openings : s'.openings = s.openings) : s'.Stage c := by
  have fresh (unopened : s.Unopened c) : s'.Unopened c :=
    unopened.same openings (by rw [link])
  cases h with
  | quiet waiting _ outbox _ unopened =>
      refine .quiet ?_ ?_ ?_ after (fresh unopened) <;> rw [link]
      · exact waiting
      · exact outbox
  | sent m waiting _ outbox _ _ _ =>
      refine .lost m ?_ ?_ ?_ after (Or.inr (Or.inr ?_)) <;> rw [link]
      · exact waiting
      · exact outbox
  | served m b _ _ _ found serving =>
      exact absurd ((before b found).symm.trans serving.busy) Bool.false_ne_true
  | answered m r waiting _ outbox _ answers =>
      refine .answered m r ?_ ?_ ?_ after ?_ <;> rw [link]
      · exact waiting
      · exact outbox
      · refine answers.mono fun o mem => ?_
        rw [openings]
        exact mem
  | lost m waiting _ outbox _ _ =>
      refine .lost m ?_ ?_ ?_ after (Or.inr (Or.inr ?_)) <;> rw [link]
      · exact waiting
      · exact outbox

theorem unbusy_of_none (none : s.blocks c = none) : s.Unbusy c := by
  intro b found
  exact absurd (none.symm.trans found) (Option.some_ne_none b).symm

theorem unbusy_of_some (found : s.blocks c = some b) (idle : b.point.busy = false) :
    s.Unbusy c := by
  intro b' found'
  obtain rfl := Option.some.inj (found.symm.trans found')
  exact idle

theorem unbusy_setBlock (s : Protocol) (idle : b.point.busy = false) :
    (s.setBlock c b).Unbusy c :=
  unbusy_of_some (blocks_setBlock_self ..) idle

/-! The calls of the client. -/

theorem flow_call (h : s.Flow c) (waiting : (s.links c).waiting = none) (m : SeatdMsg) :
    (s.setLink c { s.links c with
      waiting := some m, inbox := written (s.links c) m.toBytes }).Flow c := by
  have link : (s.setLink c { s.links c with
      waiting := some m, inbox := written (s.links c) m.toBytes }).links c = { s.links c with
        waiting := some m, inbox := written (s.links c) m.toBytes } :=
    links_setLink_self ..
  refine h.restage ?_ (by rw [link]) rfl fun ended => ⟨ended.1, by rw [link]; exact ended.2⟩
  cases h.stage with
  | quiet _ inbox outbox unbusy unopened =>
      cases closed : (s.links c).closed with
      | true =>
          have same : written (s.links c) m.toBytes = [] := by
            rw [written, closed]
            exact inbox
          refine .lost m ?_ ?_ ?_ unbusy (Or.inr (Or.inr ?_)) <;> rw [link]
          · exact same
          · exact outbox
          · exact closed
      | false =>
          have same : written (s.links c) m.toBytes = m.toBytes := by
            rw [written, closed, inbox]
            rfl
          refine .sent m ?_ ?_ ?_ ?_ unbusy (unopened.same rfl (by rw [link])) <;> rw [link]
          · exact same
          · exact outbox
          · exact closed
  | sent _ is _ _ _ _ _ | served _ _ is _ _ _ _ | answered _ _ is _ _ _ _ | lost _ is _ _ _ _ =>
      rw [waiting] at is
      cases is

theorem flow_hangUp (h : s.Flow c) :
    (s.setLink c { s.links c with hungUp := true }).Flow c := by
  have link : (s.setLink c { s.links c with hungUp := true }).links c =
      { s.links c with hungUp := true } :=
    links_setLink_self ..
  have fresh (unopened : s.Unopened c) :
      (s.setLink c { s.links c with hungUp := true }).Unopened c :=
    unopened.same rfl (by rw [link])
  refine h.restage ?_ (by rw [link]) rfl fun ended => ⟨ended.1, by rw [link]; exact ended.2⟩
  cases h.stage with
  | quiet waiting inbox outbox unbusy unopened =>
      refine .quiet ?_ ?_ ?_ unbusy (fresh unopened) <;> rw [link]
      · exact waiting
      · exact inbox
      · exact outbox
  | sent m waiting inbox outbox closed unbusy unopened =>
      refine .sent m ?_ ?_ ?_ ?_ unbusy (fresh unopened) <;> rw [link]
      · exact waiting
      · exact inbox
      · exact outbox
      · exact closed
  | served m b waiting inbox outbox found serving =>
      refine .served m b ?_ ?_ ?_ found ?_
      · rw [link]
        exact waiting
      · rw [link]
        exact inbox
      · rw [link]
        exact outbox
      · cases point : b.point with
        | opening path =>
            rw [point] at serving
            exact ⟨serving.1, serving.2.1, serving.2.2.1, fresh serving.2.2.2⟩
        | tracking fd | replying code fd =>
            rw [point] at serving
            rw [Serving, link]
            exact serving
        | idle | releasing fd | leaving | clearing | testing =>
            rw [point] at serving
            exact serving.elim
  | answered m r waiting inbox outbox unbusy answers =>
      refine .answered m r ?_ ?_ ?_ unbusy ?_ <;> rw [link]
      · exact waiting
      · exact inbox
      · exact outbox
      · exact answers
  | lost m waiting inbox outbox unbusy why =>
      refine .lost m ?_ ?_ ?_ unbusy (Or.inr (Or.inl ?_)) <;> rw [link]
      · exact waiting
      · exact inbox
      · exact outbox

/-- A call returns with `out`. -/
theorem flow_return (h : s.Flow c) (out : Option Reply) {l : Link}
    (same : l = { s.links c with
      waiting := none, inbox := [], outbox := [],
      returned := (s.links c).returned ++ [(m, out)] })
    (unbusy : s.Unbusy c)
    (answers : ∀ r, out = some r → s.Answers c (s.links c).returned.length m r)
    (ended : out = none → s.blocks c = none ∧ (s.links c).closed = true) :
    (s.setLink c l).Flow c := by
  have link : (s.setLink c l).links c = l := links_setLink_self ..
  have returned : ((s.setLink c l).links c).returned = (s.links c).returned ++ [(m, out)] := by
    rw [link, same]
  have length : ((s.setLink c l).links c).returned.length = (s.links c).returned.length + 1 := by
    rw [returned, List.length_append, List.length_singleton]
  have closed : ((s.setLink c l).links c).closed = (s.links c).closed := by rw [link, same]
  refine ⟨?_, ?_, ?_, h.once, ?_⟩
  · refine .quiet ?_ ?_ ?_ unbusy ?_
    · rw [link, same]
    · rw [link, same]
    · rw [link, same]
    · intro o mem own
      rw [length]
      exact Nat.lt_succ_of_le (h.bounded o mem own)
  · intro call m' r is
    rw [returned] at is
    by_cases before : call < (s.links c).returned.length
    · rw [List.getElem?_append_left before] at is
      exact h.answers call m' r is
    · rw [List.getElem?_append_right (Nat.le_of_not_lt before)] at is
      obtain ⟨lt, is⟩ := List.getElem?_eq_some_iff.mp is
      have at_end : call = (s.links c).returned.length := by
        rw [List.length_singleton] at lt
        omega
      subst at_end
      simp only [Nat.sub_self, List.getElem_cons_zero, Prod.mk.injEq] at is
      obtain ⟨rfl, rfl⟩ := is
      exact answers r rfl
  · intro m' is
    rw [returned] at is
    rw [closed]
    rcases List.mem_append.mp is with old | new
    · exact h.ended m' old
    · exact ended (Prod.mk.inj (List.mem_singleton.mp new)).2.symm
  · intro o mem own
    rw [length]
    exact Nat.le_succ_of_le (h.bounded o mem own)

theorem flow_receive (h : s.Flow c) (custody : s.Custody c) (here : (s.links c).hungUp = false)
    (next : s.receive c = some s') : s'.Flow c := by
  unfold receive at next
  cases h.stage with
  | quiet waiting _ _ _ _ =>
      simp only [waiting] at next
      cases next
  | sent m waiting _ outbox closed _ _ =>
      simp only [waiting, outbox, closed] at next
      cases next
  | served m b waiting _ outbox found serving =>
      have closed := (custody.serves found).closed_of_midway
        (Point.midway_of_busy serving.busy)
      simp only [waiting, outbox, closed] at next
      cases next
  | answered m r waiting inbox outbox unbusy answers =>
      simp only [waiting, outbox] at next
      obtain rfl := Option.some.inj next
      refine flow_return (m := m) h (some r) (by rw [inbox]) unbusy ?_ (fun same => by cases same)
      intro r' same
      obtain rfl := Option.some.inj same
      exact answers
  | lost m waiting inbox outbox unbusy _ =>
      simp only [waiting, outbox] at next
      obtain ⟨closed, same⟩ := Option.ite_none_right_eq_some.mp next
      obtain rfl := Option.some.inj same
      refine flow_return (m := m) h none (by rw [inbox]) unbusy (fun _ same => by cases same)
        fun _ => ?_
      cases found : s.blocks c with
      | none => exact ⟨rfl, closed⟩
      | some b =>
          have hung := ((custody.serves found).gone closed).1
          exact absurd (here.symm.trans hung) Bool.false_ne_true

/-! The steps of the block. -/

theorem requestOf_message (m : SeatdMsg) (stack : Fin msgSize → UInt8) :
    requestOf stack (some m.toBytes) = some (m.type, m.path) := by
  change some (received stack m.toBytes).terminate.request = _
  rw [SeatdMsg.received_toBytes]
  rfl

theorem serving_entry (unopened : s.Unopened c) (known : m.Known) :
    s.Serving c m (.entry (some (m.type, m.path))) := by
  unfold Point.entry
  dsimp only
  by_cases device : m.type = msgOpenDevice
  · rw [if_pos device]
    cases blocked : refused m.path with
    | true =>
        change s.Answers c _ m ⟨-eperm, none⟩
        rw [Answers, if_pos device, if_pos blocked]
    | false => exact ⟨device, rfl, blocked, unopened⟩
  · have plain : s.Serving c m (.replying 0 none) := by
      change s.Answers c _ m ⟨0, none⟩
      rw [Answers, if_neg device]
      exact ⟨known, rfl⟩
    rw [if_neg device]
    by_cases closing : m.type = msgCloseDevice
    · rw [if_pos closing]
      exact plain
    · rw [if_neg closing, if_pos ((known.resolve_left device).resolve_left closing)]
      exact plain

theorem entry_unknown (unknown : ¬ m.Known) :
    Point.entry (some (m.type, m.path)) = .testing := by
  simp only [SeatdMsg.Known, not_or] at unknown
  unfold Point.entry
  dsimp only
  rw [if_neg unknown.1, if_neg unknown.2.1,
    if_neg (not_or.mpr ⟨unknown.2.2.1, unknown.2.2.2⟩)]

/-- A block that is busy is so with the call of its client. -/
theorem Flow.served_of_busy (h : s.Flow c) (found : s.blocks c = some b)
    (busy : b.point.busy = true) : ∃ m, (s.links c).waiting = some m ∧
      (s.links c).inbox = [] ∧ (s.links c).outbox = [] ∧ s.Serving c m b.point := by
  have absurd_of (unbusy : s.Unbusy c) : False :=
    Bool.false_ne_true ((unbusy b found).symm.trans busy)
  cases h.stage with
  | quiet _ _ _ unbusy _ => exact (absurd_of unbusy).elim
  | sent _ _ _ _ _ unbusy _ => exact (absurd_of unbusy).elim
  | answered _ _ _ _ _ unbusy _ => exact (absurd_of unbusy).elim
  | lost _ _ _ _ unbusy _ => exact (absurd_of unbusy).elim
  | served m b₁ waiting inbox outbox found₁ serving =>
      obtain rfl := Option.some.inj (found.symm.trans found₁)
      exact ⟨m, waiting, inbox, outbox, serving⟩

theorem Serving.setBlock {p : Point} (serving : s.Serving c m p) (b : Block) :
    (s.setBlock d b).Serving c m p := by
  cases p with
  | opening _ | tracking _ | replying _ _ => exact serving
  | idle | releasing _ | leaving | clearing | testing => exact serving.elim

theorem flow_of_unbusy (h : s.Flow c) (found : s.blocks c = some b)
    (idle : b.point.busy = false) {u : Protocol} (idle' : b'.point.busy = false)
    (link : u.links c = s.links c) (openings : u.openings = s.openings) :
    (u.setBlock c b').Flow c := by
  refine h.restage_block found ?_ (congrArg Link.returned link) openings
  exact h.stage.unserved (unbusy_of_some found idle) (unbusy_setBlock u idle') link openings

/-- What the block has in hand goes on to its next point. -/
theorem flow_of_serving (h : s.Flow c) (found : s.blocks c = some b) {u : Protocol}
    (link : u.links c = { s.links c with inbox := [] }) (openings : u.openings = s.openings)
    (waiting : (s.links c).waiting = some m) (outbox : (s.links c).outbox = [])
    (serving : u.Serving c m b'.point) : (u.setBlock c b').Flow c := by
  have here : (u.setBlock c b').blocks c = some b' := blocks_setBlock_self ..
  have same : (u.setBlock c b').links c = { s.links c with inbox := [] } := link
  refine h.restage_block found (.served m b' ?_ ?_ ?_ here (serving.setBlock b'))
    (by rw [same]) openings <;> rw [same]
  · exact waiting
  · exact outbox

theorem flow_recv (h : s.Flow c) (found : s.blocks c = some b) (point : b.point = .idle)
    (file : s.files (s.clients b.slot).fd = some (.connection c))
    {out : Option (List UInt8)} {u : Protocol}
    (got : s.recv (s.clients b.slot).fd = some (out, u)) :
    (u.setBlock c { b with point := .entry (requestOf stack out) }).Flow c := by
  have idle : b.point.busy = false := by
    rw [point]
    rfl
  rcases recv_own file got with ⟨_, _, rfl, rfl⟩ | ⟨full, rfl, rfl⟩
  · exact flow_of_unbusy h found idle rfl rfl rfl
  · have empty (inbox : (s.links c).inbox = []) : False := full inbox
    cases h.stage with
    | quiet _ inbox _ _ _ => exact (empty inbox).elim
    | served _ _ _ inbox _ _ _ => exact (empty inbox).elim
    | answered _ _ _ inbox _ _ _ => exact (empty inbox).elim
    | lost _ _ inbox _ _ _ => exact (empty inbox).elim
    | sent m waiting inbox outbox closed unbusy unopened =>
        have whole : m.toBytes.length ≤ msgSize := Nat.le_of_eq m.length_toBytes
        rw [inbox, List.take_of_length_le whole, List.drop_eq_nil_of_le whole,
          requestOf_message]
        have link : (s.setLink c { s.links c with inbox := [] }).links c =
            { s.links c with inbox := [] } :=
          links_setLink_self ..
        by_cases known : m.Known
        · refine flow_of_serving h found link rfl waiting outbox (serving_entry ?_ known)
          exact unopened.same rfl (by rw [link])
        · rw [entry_unknown known]
          have same : ((s.setLink c { s.links c with inbox := [] }).setBlock c
              { b with point := .testing }).links c = { s.links c with inbox := [] } := link
          refine h.restage_block found (.lost m ?_ ?_ ?_ (unbusy_setBlock _ rfl)
            (Or.inl known)) (by rw [same]) rfl <;> rw [same]
          · exact waiting
          · exact outbox

/-- An `open` for the call that is being made. -/
theorem flow_opened (h : s.Flow c) (found : s.blocks c = some b) (unopened : s.Unopened c)
    (waiting : (s.links c).waiting = some m) (inbox : (s.links c).inbox = [])
    (outbox : (s.links c).outbox = []) {o : Opening} (own : o.conn = c)
    (call : o.call = (s.links c).returned.length) {u : Protocol} (link : u.links c = s.links c)
    (openings : u.openings = s.openings ++ [o]) (serving : u.Serving c m b'.point) :
    (u.setBlock c b').Flow c := by
  have here : (u.setBlock c b').blocks c = some b' := blocks_setBlock_self ..
  have same : (u.setBlock c b').links c = s.links c := link
  have grown : (u.setBlock c b').openings = s.openings ++ [o] := openings
  refine ⟨.served m b' ?_ ?_ ?_ here ?_, ?_, ?_, ?_, ?_⟩
  · rw [same]
    exact waiting
  · rw [same]
    exact inbox
  · rw [same]
    exact outbox
  · exact serving.setBlock b'
  · intro call m r is
    rw [same] at is
    refine (h.answers call m r is).mono fun o' mem => ?_
    rw [grown]
    exact List.mem_append_left _ mem
  · intro m is
    rw [same] at is
    exact absurd ((h.ended m is).1.symm.trans found) (Option.some_ne_none b).symm
  · intro n
    rw [grown, List.filter_append]
    by_cases now : n = (s.links c).returned.length
    · have before : (s.openings.filter fun o => o.conn = c ∧ o.call = n) = [] := by
        refine List.filter_eq_nil_iff.mpr fun o' mem is => ?_
        obtain ⟨own', call'⟩ := of_decide_eq_true is
        have lt := unopened o' mem own'
        omega
      rw [before]
      exact List.length_filter_le ..
    · have other : ([o].filter fun o => o.conn = c ∧ o.call = n) = [] := by
        refine List.filter_eq_nil_iff.mpr fun o' mem is => ?_
        obtain rfl := List.mem_singleton.mp mem
        exact now ((of_decide_eq_true is).2.symm.trans call)
      rw [other, List.append_nil]
      exact h.once n
  · intro o' mem own'
    rw [grown] at mem
    rw [same]
    rcases List.mem_append.mp mem with old | new
    · exact h.bounded o' old own'
    · obtain rfl := List.mem_singleton.mp new
      exact Nat.le_of_eq call

theorem answers_opening {o : Opening} (device : m.type = msgOpenDevice)
    (passed : refused m.path = false) (mem : o ∈ s.openings) (own : o.conn = c)
    (path : o.path = m.path) : s.Answers c o.call m o.reply := by
  rw [Answers, if_pos device, if_neg (by rw [passed]; exact Bool.false_ne_true)]
  exact ⟨o, mem, own, rfl, path, rfl⟩

theorem flow_openDevice (h : s.Flow c) (found : s.blocks c = some b) {path : List UInt8}
    (point : b.point = .opening path) {opened : Except Int Nat} {u : Protocol}
    (made : s.openDevice c path opened = some u) :
    (u.setBlock c { b with point := .opened opened }).Flow c := by
  obtain ⟨m, waiting, inbox, outbox, serving⟩ := h.served_of_busy found (by rw [point]; rfl)
  rw [point] at serving
  obtain ⟨device, rfl, passed, unopened⟩ := serving
  have answers (errno : Option Int) :
      (s.recordOpening c m.path errno).Answers c (s.links c).returned.length m
        (Opening.reply ⟨c, (s.links c).returned.length, m.path, errno⟩) := by
    refine answers_opening (o := ⟨c, _, m.path, errno⟩) device passed ?_ rfl rfl
    exact List.mem_append_right _ (List.mem_singleton.mpr rfl)
  cases opened with
  | error errno =>
      obtain rfl := Option.some.inj made
      exact flow_opened h found unopened waiting inbox outbox
        (o := ⟨c, (s.links c).returned.length, m.path, some errno⟩) rfl rfl rfl rfl
        (answers (some errno))
  | ok fd =>
      obtain ⟨_, same⟩ := Option.ite_none_left_eq_some.mp made
      obtain rfl := Option.some.inj same
      refine flow_opened h found unopened waiting inbox outbox
        (o := ⟨c, (s.links c).returned.length, m.path, none⟩) rfl rfl rfl rfl ?_
      have file : ((s.recordOpening c m.path none).setFile fd
          (some (.device m.path c (s.links c).returned.length))).files fd =
            some (.device m.path c (s.links c).returned.length) :=
        files_setFile_self ..
      change Answers _ c _ m ⟨0, _⟩
      rw [file]
      exact answers none

theorem flow_reply (h : s.Flow c) (found : s.blocks c = some b) {code : Int} {fd : Option Nat}
    (point : b.point = .replying code fd)
    (file : s.files (s.clients b.slot).fd = some (.connection c)) (idle : b'.point.busy = false) :
    ((s.sendmsg (s.clients b.slot).fd ⟨code, fd.bind fun fd => s.files fd⟩).setBlock c
      b').Flow c := by
  obtain ⟨m, waiting, inbox, outbox, serving⟩ := h.served_of_busy found (by rw [point]; rfl)
  rw [point] at serving
  rw [sendmsg, file]
  dsimp only
  split
  · rename_i hung
    refine h.restage_block found (.lost m waiting inbox outbox (unbusy_setBlock s idle) ?_) rfl rfl
    exact Or.inr (Or.inl hung)
  · have link : ((s.setLink c { s.links c with outbox := (s.links c).outbox ++
        [⟨code, fd.bind fun fd => s.files fd⟩] }).setBlock c b').links c =
          { s.links c with outbox := (s.links c).outbox ++
            [⟨code, fd.bind fun fd => s.files fd⟩] } :=
      links_setLink_self ..
    refine h.restage_block found (.answered m ⟨code, fd.bind fun fd => s.files fd⟩ ?_ ?_ ?_
      (unbusy_setBlock _ idle) ?_) ?_ rfl <;> rw [link]
    · exact waiting
    · exact inbox
    · rw [outbox]
      rfl
    · exact serving.mono fun o mem => mem

theorem flow_leaving (h : s.Flow c) (found : s.blocks c = some b) (point : b.point = .leaving)
    (file : s.files (s.clients b.slot).fd = some (.connection c)) (idle : b'.point.busy = false) :
    ((s.close (s.clients b.slot).fd).setBlock c b').Flow c := by
  have link : ((s.close (s.clients b.slot).fd).setBlock c b').links c =
      { s.links c with closed := true, inbox := [] } := by
    rw [close, file]
    exact links_setLink_self ..
  have openings : ((s.close (s.clients b.slot).fd).setBlock c b').openings = s.openings := by
    rw [close, file]
    rfl
  refine h.restage_block found ?_ (by rw [link]) openings
  exact h.stage.closed (unbusy_of_some found (by rw [point]; rfl)) (unbusy_setBlock _ idle) link
    openings

theorem flow_work (h : s.Flow c) (custody : s.Custody c) (found : s.blocks c = some b)
    {opened : Except Int Nat} (next : s.work c b stack opened = some s') : s'.Flow c := by
  have serves := custody.serves found
  have file (closed : (s.links c).closed = false) :
      s.files (s.clients b.slot).fd = some (.connection c) := (serves.seated closed).2.2.2
  obtain ⟨p, point, worked⟩ := work_cases next
  cases worked with
  | received alive got =>
      have open' := serves.closed_of_alive point alive
      exact flow_recv h found point (file open') got
  | called made => exact flow_openDevice h found point made
  | tracked fd =>
      obtain ⟨m, waiting, inbox, outbox, serving⟩ := h.served_of_busy found (by rw [point]; rfl)
      rw [point] at serving
      have link : s.links c = { s.links c with inbox := [] } := by rw [← inbox]
      exact flow_of_serving h found (u := s.setClient _ _) link rfl waiting outbox serving
  | replied code fd =>
      have open' := serves.closed_of_midway (by rw [point]; rfl)
      refine flow_reply h found point (file open') ?_
      cases fd <;> rfl
  | released fd =>
      rw [serves.close_held (by rw [point]; rfl)]
      exact flow_of_unbusy h found (by rw [point]; rfl) rfl rfl rfl
  | left =>
      have open' := serves.closed_of_midway (by rw [point]; rfl)
      exact flow_leaving h found point (file open') rfl
  | cleared => exact flow_of_unbusy h found (by rw [point]; rfl) rfl rfl rfl
  | tested => exact flow_of_unbusy h found (by rw [point]; rfl) rfl rfl rfl

/-! `accept_client`. -/

theorem flow_vacant (h : s.Flow c) (before : s.blocks c = none) (after : s'.Unbusy c)
    (link : s'.links c = s.links c) (openings : s'.openings = s.openings)
    (open' : (s.links c).closed = false ∨ s'.blocks c = none) : s'.Flow c := by
  refine h.restage ?_ (congrArg Link.returned link) openings ?_
  · exact h.stage.unserved (unbusy_of_none before) after link openings
  · intro ended
    refine ⟨open'.resolve_left fun closed => ?_, (congrArg Link.closed link).trans ended.2⟩
    exact Bool.false_ne_true (closed.symm.trans ended.2)

theorem flow_finishAccept (sound : s.Sound) (h : s.Flow c) {cfd : Int}
    (arriving : s.accepting = some (c, cfd)) (pid : Int) : (s.finishAccept c cfd pid).Flow c := by
  obtain ⟨none, vacant⟩ := sound.vacant_of_accepting arriving
  obtain ⟨_, file, _⟩ := vacant.arriving cfd arriving
  unfold finishAccept
  cases scan : s.freeSlot with
  | some i =>
      dsimp only
      refine flow_vacant h none ?_ rfl rfl (Or.inl (vacant.file cfd file).1)
      exact unbusy_setBlock (b := { slot := i }) _ rfl
  | none =>
      dsimp only
      have blocks : ({ s.close cfd with accepting := .none } : Protocol).blocks c = .none := by
        rw [close, file]
        exact none
      have openings : ({ s.close cfd with accepting := .none } : Protocol).openings =
          s.openings := by
        rw [close, file]
        rfl
      have link : ({ s.close cfd with accepting := .none } : Protocol).links c =
          { s.links c with closed := true, inbox := [] } := by
        rw [close, file]
        exact links_setLink_self ..
      refine h.restage ?_ (by rw [link]) openings fun _ => ⟨blocks, by rw [link]⟩
      exact h.stage.closed (unbusy_of_none none) (unbusy_of_none blocks) link openings

theorem step_flow (sound : s.Sound) (h : s.Flow c) {a : Action} (guard : s.LeaverFindsFree a)
    (orderly : a.strays c = false) (next : s.step a = some s') : s'.Flow c := by
  have acts := step_acts sound guard next
  by_cases own : c = s.actor a
  · cases a with
    | connect =>
        cases next
        obtain ⟨none, _⟩ := sound.vacant_of_le (c := c) (own ▸ sound.counted)
        exact flow_vacant h none (unbusy_of_none none) rfl rfl (Or.inr none)
    | call d m =>
        obtain rfl : c = d := own
        obtain ⟨free, same⟩ := Option.ite_none_right_eq_some.mp next
        obtain rfl := Option.some.inj same
        simp only [Bool.and_eq_true, Option.isNone_iff_eq_none] at free
        exact flow_call h free.2 m
    | write d bytes =>
        obtain rfl : c = d := own
        exact absurd rfl (of_decide_eq_false orderly)
    | receive d =>
        obtain rfl : c = d := own
        obtain ⟨here, next⟩ := Option.ite_none_right_eq_some.mp next
        simp only [present, Bool.and_eq_true, Bool.not_eq_true'] at here
        exact flow_receive h (sound.custody c) here.2 next
    | hangUp d =>
        obtain rfl : c = d := own
        obtain ⟨_, same⟩ := Option.ite_none_right_eq_some.mp next
        obtain rfl := Option.some.inj same
        exact flow_hangUp h
    | accept cfd =>
        obtain ⟨_, same⟩ := Option.ite_none_right_eq_some.mp next
        obtain rfl := Option.some.inj same
        obtain ⟨none, _⟩ := sound.vacant_of_le (c := c) (Nat.le_of_eq own.symm)
        exact flow_vacant h none (unbusy_of_none none) rfl rfl (Or.inr none)
    | finishAccept pid =>
        obtain ⟨cfd, arriving, rfl⟩ := step_finishAccept next
        rw [← own] at arriving ⊢
        exact flow_finishAccept sound h arriving pid
    | work d stack opened =>
        obtain rfl : c = d := own
        obtain ⟨b, found, worked⟩ := Option.bind_eq_some_iff.mp next
        exact flow_work h (sound.custody c) found worked
  · exact h.untouched (sound.custody c) (acts.others c own)

theorem flow_start (c : Nat) : Flow {} c where
  stage := .quiet rfl rfl rfl (unbusy_of_none rfl) nofun
  answers := by
    intro call m r is
    cases is
  ended := by
    intro m is
    cases is
  once call := Nat.zero_le 1
  bounded := by
    intro o mem
    cases mem

/-- A call that has not returned is in one place: unread, in the hands of its block, or its
reply is there. -/
inductive InTransit (s : Protocol) (c : Nat) (m : SeatdMsg) : Prop
  | unread (inbox : (s.links c).inbox = m.toBytes) (outbox : (s.links c).outbox = [])
      (unbusy : s.Unbusy c)
  | inHand (b : Block) (inbox : (s.links c).inbox = []) (outbox : (s.links c).outbox = [])
      (found : s.blocks c = some b) (serving : s.Serving c m b.point)
  | ready (r : Reply) (inbox : (s.links c).inbox = []) (outbox : (s.links c).outbox = [r])
      (unbusy : s.Unbusy c) (answers : s.Answers c (s.links c).returned.length m r)

/-- What the client of `c` can rely on. Its calls return the replies to their own messages;
`seatd_open_device` returns the device that was opened for that call, and at most one is;
the stream ends only where the client was turned away; no call is lost; and there is one
reply on its way at most, and none while no call waits. -/
structure Answered (s : Protocol) (c : Nat) : Prop where
  own : ∀ call m r, (s.links c).returned[call]? = some (m, some r) → s.Answers c call m r
  device : ∀ call path r f, 0 ∉ path →
    (s.links c).returned[call]? = some ((openRequest path).toSeatdMsg, r) →
    deviceOf r = some f → refused path = false ∧ f = .device (path.take 255) c call
  once : ∀ call, (s.openings.filter fun o => o.conn = c ∧ o.call = call).length ≤ 1
  turnedAway : ∀ m, (m, none) ∈ (s.links c).returned →
    s.blocks c = none ∧ (s.links c).closed = true
  pending : ∀ m, (s.links c).waiting = some m → m.Known → (s.links c).hungUp = false →
    (s.links c).closed = false → s.InTransit c m
  oneReply : (s.links c).outbox.length ≤ 1
  noReply : (s.links c).waiting = none → (s.links c).outbox = []

theorem path_openRequest {path : List UInt8} (nul_free : 0 ∉ path) :
    (openRequest path).toSeatdMsg.path = path.take 255 := by
  rw [SeatdMsg.path, Request.terminate_eq]
  exact cString_strncpyData nul_free

theorem Answers.device {call : Nat} {path : List UInt8} {f : File} (nul_free : 0 ∉ path)
    (h : s.Answers c call (openRequest path).toSeatdMsg r) (gets : deviceOf (some r) = some f) :
    refused path = false ∧ f = .device (path.take 255) c call := by
  have device : (openRequest path).toSeatdMsg.type = msgOpenDevice := rfl
  have passes : deviceOf (some r) = if r.code ≠ 0 then none else r.file := rfl
  rw [Answers, if_pos device, path_openRequest nul_free, refused_take] at h
  rw [passes] at gets
  obtain ⟨_, file⟩ := Option.ite_none_left_eq_some.mp gets
  split at h
  · rw [h] at file
    cases file
  · rename_i passed
    refine ⟨Bool.eq_false_of_not_eq_true passed, ?_⟩
    obtain ⟨o, _, rfl, rfl, opens, rfl⟩ := h
    cases errno : o.errno with
    | some e =>
        rw [Opening.reply, errno] at file
        cases file
    | none =>
        rw [Opening.reply, errno, opens] at file
        exact (Option.some.inj file).symm

/-- A reply is on its way only for the call that waits. -/
theorem Stage.outbox (h : s.Stage c) : (s.links c).outbox = [] ∨
    (∃ m, (s.links c).waiting = some m) ∧ ∃ r, (s.links c).outbox = [r] := by
  cases h with
  | quiet _ _ outbox _ _ | sent _ _ _ outbox _ _ _ | served _ _ _ _ outbox _ _
  | lost _ _ _ outbox _ _ => exact Or.inl outbox
  | answered m r waiting _ outbox _ _ => exact Or.inr ⟨⟨m, waiting⟩, r, outbox⟩

theorem Flow.answered (h : s.Flow c) : s.Answered c where
  own := h.answers
  device := by
    intro call path r f nul_free is gets
    cases r with
    | none => cases gets
    | some r => exact (h.answers call _ r is).device nul_free gets
  once := h.once
  turnedAway := h.ended
  pending := by
    intro m waits known here open'
    cases h.stage with
    | quiet waiting _ _ _ _ => exact absurd (waiting.symm.trans waits) (Option.some_ne_none m).symm
    | sent m' waiting inbox outbox _ unbusy _ =>
        obtain rfl := Option.some.inj (waiting.symm.trans waits)
        exact .unread inbox outbox unbusy
    | served m' b waiting inbox outbox found serving =>
        obtain rfl := Option.some.inj (waiting.symm.trans waits)
        exact .inHand b inbox outbox found serving
    | answered m' r waiting inbox outbox unbusy answers =>
        obtain rfl := Option.some.inj (waiting.symm.trans waits)
        exact .ready r inbox outbox unbusy answers
    | lost m' waiting _ _ _ why =>
        obtain rfl := Option.some.inj (waiting.symm.trans waits)
        rcases why with unknown | hung | closed
        · exact absurd known unknown
        · exact absurd (here.symm.trans hung) Bool.false_ne_true
        · exact absurd (open'.symm.trans closed) Bool.false_ne_true
  oneReply := by
    rcases h.stage.outbox with none | ⟨_, r, one⟩
    · rw [none]
      exact Nat.zero_le 1
    · rw [one]
      exact Nat.le_refl 1
  noReply := by
    intro free
    rcases h.stage.outbox with none | ⟨⟨m, waits⟩, _⟩
    · exact none
    · exact absurd (free.symm.trans waits) (Option.some_ne_none m).symm

theorem run_flow {as : List Action} (ran : Runs.run step {} as = some s)
    (guarded : ∀ t a, Runs.Takes step {} as t a → t.LeaverFindsFree a)
    (orderly : ∀ a ∈ as, a.strays c = false) : s.Sound ∧ s.Flow c := by
  have guard (t : Protocol) (a : Action) (taken : Runs.Takes step {} as t a) :
      t.LeaverFindsFree a ∧ a.strays c = false :=
    ⟨guarded t a taken, orderly a (Runs.mem_of_takes taken)⟩
  have kept (t : Protocol) (a : Action) (t' : Protocol) (h : t.Sound ∧ t.Flow c)
      (guard : t.LeaverFindsFree a ∧ a.strays c = false) (next : t.step a = some t') :
      t'.Sound ∧ t'.Flow c :=
    ⟨h.1.acts (step_acts h.1 guard.1 next), step_flow h.1 h.2 guard.1 guard.2 next⟩
  exact Runs.run_invariant_takes kept ⟨sound_start, flow_start c⟩ ran guard

/-- In every run whose tests after a disconnection find the slot free, a client that makes
one call at a time gets the answers to its own calls, whatever the others write, however the
blocks of the server run beside each other, and whoever leaves in the middle of a call. -/
theorem calls_answered {as : List Action} (ran : Runs.run step {} as = some s)
    (guarded : ∀ t a, Runs.Takes step {} as t a → t.LeaverFindsFree a)
    (orderly : ∀ a ∈ as, a.strays c = false) : s.Answered c :=
  (run_flow ran guarded orderly).2.answered

theorem calls_answered_two_clients :
    ∃ s, Runs.run step {} (asking ++ serving) = some s ∧ s.Answered 1 ∧
      (s.links 1).returned.map (fun call => deviceOf call.2) =
        [some (.device (bytes "/dev/input/event0") 1 0)] := by
  have ends : (Runs.run step {} (asking ++ serving)).map (fun s =>
      (s.links 1).returned.map fun call => deviceOf call.2) =
        some [some (.device (bytes "/dev/input/event0") 1 0)] := by decide +kernel
  have guarded : Runs.allTaken step LeaverFindsFree {} (asking ++ serving) = true := by
    decide +kernel
  have orderly : ∀ a ∈ asking ++ serving, a.strays 1 = false := by decide +kernel
  obtain ⟨s, ran, final⟩ := Option.map_eq_some_iff.mp ends
  exact ⟨s, ran, calls_answered ran (fun _ _ taken => Runs.takes_of_allTaken guarded taken)
    orderly, final⟩

end Protocol
end LunaOS.Seatd
