import LunaOS.Seatd.Replies

/-!
A call is answered within six steps of its block. What the other blocks and clients do in
between takes none of them back, so `due` bounds what is left from wherever the block stands;
and until the reply is there, the block has a step to take.
-/
namespace LunaOS.Seatd

/-- How many steps of the block are left before the reply to a call that is waiting. -/
def Point.due : Point → Nat
  | .releasing _ => 6
  | .testing => 5
  | .idle => 4
  | .opening _ => 3
  | .tracking _ => 2
  | .replying _ _ => 1
  | .leaving => 0
  | .clearing => 0

namespace Protocol

/-- A step of the block of `c`. -/
def Action.serves (c : Nat) : Action → Bool
  | .work d _ _ => d = c
  | _ => false

/-- The reply to call number `n` is there, or the block of `c` is within `k` steps of it. -/
inductive Within (s : Protocol) (c n k : Nat) : Prop
  | left (hung : (s.links c).hungUp = true)
  | returned (past : n < (s.links c).returned.length)
  | replied (reached : n ≤ (s.links c).returned.length) (reply : (s.links c).outbox ≠ [])
  | near (m : SeatdMsg) (b : Block) (waiting : (s.links c).waiting = some m) (known : m.Known)
      (now : (s.links c).returned.length = n) (found : s.blocks c = some b)
      (close : b.point.due ≤ k)

variable {s s' : Protocol} {c n k : Nat} {b : Block} {m : SeatdMsg}
variable {stack : Fin msgSize → UInt8}

theorem Within.untouched (h : s.Within c n k) (same : Untouched c s s') : s'.Within c n k := by
  have link := same.link
  cases h with
  | left hung => exact .left (link ▸ hung)
  | returned past => exact .returned (link ▸ past)
  | replied reached reply => exact .replied (link ▸ reached) (link ▸ reply)
  | near m b waiting known now found close =>
      exact .near m b (link ▸ waiting) known (link ▸ now) (same.block.trans found) close

theorem Serves.closed_of_here (h : s.Serves c b) (here : (s.links c).hungUp = false) :
    (s.links c).closed = false := by
  cases closed : (s.links c).closed with
  | false => rfl
  | true => exact absurd (here.symm.trans (h.gone closed).1) Bool.false_ne_true

/-- Where a call waits and its block has nothing in hand, the message is there whole. -/
theorem Flow.unread (h : s.Flow c) (waiting : (s.links c).waiting = some m) (known : m.Known)
    (here : (s.links c).hungUp = false) (closed : (s.links c).closed = false)
    (silent : (s.links c).outbox = []) (unbusy : s.Unbusy c) :
    (s.links c).inbox = m.toBytes := by
  cases h.answered.pending m waiting known here closed with
  | unread inbox _ _ => exact inbox
  | inHand b _ _ found serving =>
      exact absurd ((unbusy b found).symm.trans serving.busy) Bool.false_ne_true
  | ready r _ outbox _ _ =>
      rw [outbox] at silent
      cases silent

theorem toBytes_ne_nil (m : SeatdMsg) : m.toBytes ≠ [] :=
  List.cons_ne_nil _ _

theorem due_entry (known : m.Known) : (Point.entry (some (m.type, m.path))).due ≤ 3 := by
  unfold Point.entry
  dsimp only
  split
  · split
    · exact Nat.le_of_ble_eq_true rfl
    · exact Nat.le_refl 3
  · rename_i device
    split
    · exact Nat.le_of_ble_eq_true rfl
    · rename_i closing
      rw [if_pos ((known.resolve_left device).resolve_left closing)]
      exact Nat.le_of_ble_eq_true rfl

/-- A step of the block: it replies, or is one nearer to it. -/
theorem work_nears (h : s.Flow c) (custody : s.Custody c) (found : s.blocks c = some b)
    (waiting : (s.links c).waiting = some m) (known : m.Known)
    (here : (s.links c).hungUp = false) (silent : (s.links c).outbox = [])
    {opened : Except Int Nat} (next : s.work c b stack opened = some s') :
    s'.Within c (s.links c).returned.length (b.point.due - 1) := by
  have serves := custody.serves found
  have closed := serves.closed_of_here here
  obtain ⟨_, unclear, _, file⟩ := serves.seated closed
  obtain ⟨p, point, worked⟩ := work_cases next
  rw [point]
  have goes {u : Protocol} {q : Point} (link : u.links c = s.links c)
      (nearer : q.due ≤ p.due - 1) :
      (u.setBlock c { b with point := q }).Within c (s.links c).returned.length (p.due - 1) := by
    have same : (u.setBlock c { b with point := q }).links c = s.links c := link
    refine .near m { b with point := q } ?_ known (by rw [same]) ?_ nearer
    · rw [same]
      exact waiting
    · exact blocks_setBlock_self ..
  cases worked with
  | received alive got =>
      have inbox := h.unread waiting known here closed silent
        (unbusy_of_some found (by rw [point]; rfl))
      rcases recv_own file got with ⟨empty, _⟩ | ⟨_, rfl, rfl⟩
      · rw [inbox] at empty
        exact absurd empty (toBytes_ne_nil m)
      · have whole : m.toBytes.length ≤ msgSize := Nat.le_of_eq m.length_toBytes
        rw [inbox, List.take_of_length_le whole, requestOf_message]
        have link : ((s.setLink c { s.links c with inbox := m.toBytes.drop msgSize }).setBlock c
            { b with point := .entry (some (m.type, m.path)) }).links c =
              { s.links c with inbox := m.toBytes.drop msgSize } :=
          links_setLink_self ..
        refine .near m { b with point := .entry (some (m.type, m.path)) } ?_ known ?_ ?_
          (due_entry known)
        · rw [link]
          exact waiting
        · rw [link]
        · exact blocks_setBlock_self ..
  | called made =>
      cases opened with
      | error errno =>
          obtain rfl := Option.some.inj made
          exact goes rfl (Nat.le_of_ble_eq_true rfl)
      | ok fd =>
          obtain ⟨_, same⟩ := Option.ite_none_left_eq_some.mp made
          obtain rfl := Option.some.inj same
          exact goes rfl (Nat.le_refl 2)
  | tracked fd => exact goes rfl (Nat.le_refl 1)
  | replied code fd =>
      have link : ((s.sendmsg (s.clients b.slot).fd
          ⟨code, fd.bind fun fd => s.files fd⟩).setBlock c
            { b with point := fd.elim .testing .releasing }).links c =
          { s.links c with outbox := (s.links c).outbox ++
            [⟨code, fd.bind fun fd => s.files fd⟩] } := by
        rw [sendmsg, file]
        simp only [here]
        exact links_setLink_self ..
      refine .replied ?_ ?_
      · rw [link]
      · rw [link]
        exact List.append_ne_nil_of_right_ne_nil _ (List.cons_ne_nil _ _)
  | released fd =>
      rw [serves.close_held (by rw [point]; rfl)]
      exact goes rfl (Nat.le_refl 5)
  | left => exact absurd (here.symm.trans (serves.leaving point)) Bool.false_ne_true
  | cleared => exact absurd point unclear
  | tested =>
      refine .near m { b with
        point := .idle, cancelled := b.cancelled || decide ((s.clients b.slot).fd < 0) }
        waiting known rfl ?_ (Nat.le_refl 4)
      exact blocks_setBlock_self ..

/-- Until the reply is there, the block has a step to take, whatever `open` returns. -/
theorem work_enabled (h : s.Flow c) (custody : s.Custody c) (found : s.blocks c = some b)
    (waiting : (s.links c).waiting = some m) (known : m.Known)
    (here : (s.links c).hungUp = false) (silent : (s.links c).outbox = [])
    {opened : Except Int Nat} (fresh : ∀ fd : Nat, opened = .ok fd → s.files fd = none) :
    (s.work c b stack opened).isSome := by
  have serves := custody.serves found
  have closed := serves.closed_of_here here
  obtain ⟨alive, _, _, file⟩ := serves.seated closed
  unfold work
  cases point : b.point with
  | idle =>
      have inbox := h.unread waiting known here closed silent
        (unbusy_of_some found (by rw [point]; rfl))
      have full : (s.links c).inbox ≠ [] := by
        rw [inbox]
        exact toBytes_ne_nil m
      dsimp only
      rw [alive, recv, file]
      simp only [if_neg full]
      rfl
  | opening path =>
      cases opened with
      | error errno => rfl
      | ok fd =>
          dsimp only
          rw [Option.isSome_map, openDevice, fresh fd rfl]
          rfl
  | tracking _ | replying _ _ | releasing _ | leaving | clearing | testing => rfl

theorem Within.mono {k' : Nat} (h : s.Within c n k) (le : k ≤ k') : s.Within c n k' := by
  cases h with
  | left hung => exact .left hung
  | returned past => exact .returned past
  | replied reached reply => exact .replied reached reply
  | near m b waiting known now found close =>
      exact .near m b waiting known now found (close.trans le)

/-- The server takes from a client neither its call nor a reply. -/
structure Keeps (l l' : Link) : Prop where
  waiting : l'.waiting = l.waiting
  hungUp : l'.hungUp = l.hungUp
  returned : l'.returned = l.returned
  outbox : l.outbox ≠ [] → l'.outbox ≠ []

theorem Keeps.refl (l : Link) : Keeps l l :=
  ⟨rfl, rfl, rfl, id⟩

theorem keeps_setLink {l : Link} (d : Nat) (keeps : Keeps (s.links d) l) (c : Nat) :
    Keeps (s.links c) ((s.setLink d l).links c) := by
  rw [links_setLink]
  split
  · rename_i same
    rw [same]
    exact keeps
  · exact .refl _

theorem keeps_recv {sock : Int} {out : Option (List UInt8)} (got : s.recv sock = some (out, s'))
    (c : Nat) : Keeps (s.links c) (s'.links c) := by
  unfold recv at got
  split at got
  · dsimp only at got
    split at got
    · obtain ⟨_, same⟩ := Option.ite_none_right_eq_some.mp got
      cases same
      exact .refl _
    · cases got
      refine keeps_setLink _ ?_ c
      exact ⟨rfl, rfl, rfl, id⟩
  · cases got
    exact .refl _

theorem keeps_sendmsg (s : Protocol) (sock : Int) (r : Reply) (c : Nat) :
    Keeps (s.links c) ((s.sendmsg sock r).links c) := by
  unfold sendmsg
  split
  · dsimp only
    split
    · exact .refl _
    · refine keeps_setLink _ ?_ c
      refine ⟨rfl, rfl, rfl, fun _ => ?_⟩
      exact List.append_ne_nil_of_right_ne_nil _ (List.cons_ne_nil _ _)
  · exact .refl _

theorem keeps_close (s : Protocol) (fd : Int) (c : Nat) :
    Keeps (s.links c) ((s.close fd).links c) := by
  unfold close
  split
  · refine keeps_setLink (s := s.setFile fd none) _ ?_ c
    exact ⟨rfl, rfl, rfl, id⟩
  · exact .refl _

theorem keeps_openDevice {path : List UInt8} {opened : Except Int Nat}
    (made : s.openDevice c path opened = some s') (d : Nat) :
    Keeps (s.links d) (s'.links d) := by
  cases opened with
  | error errno =>
      obtain rfl := Option.some.inj made
      exact .refl _
  | ok fd =>
      obtain ⟨_, same⟩ := Option.ite_none_left_eq_some.mp made
      obtain rfl := Option.some.inj same
      exact .refl _

theorem keeps_work {opened : Except Int Nat} (next : s.work c b stack opened = some s')
    (d : Nat) : Keeps (s.links d) (s'.links d) := by
  obtain ⟨_, _, worked⟩ := work_cases next
  cases worked with
  | received _ got => exact keeps_recv got d
  | called made => exact keeps_openDevice made d
  | replied code fd => exact keeps_sendmsg s _ _ d
  | released fd => exact keeps_close s _ d
  | left => exact keeps_close s _ d
  | tracked fd | cleared | tested => exact .refl _

theorem keeps_finishAccept (s : Protocol) (cfd pid : Int) (d : Nat) :
    Keeps (s.links d) ((s.finishAccept c cfd pid).links d) := by
  unfold finishAccept
  cases s.freeSlot with
  | some i => exact .refl _
  | none => exact keeps_close s cfd d

/-- What is there stays; how near the block is has to be shown where it still matters. -/
theorem Within.advance {k' : Nat} (h : s.Within c n k) (keeps : Keeps (s.links c) (s'.links c))
    (near : ∀ m b, (s.links c).waiting = some m → m.Known → (s.links c).returned.length = n →
      s.blocks c = some b → b.point.due ≤ k → s'.Within c n k') : s'.Within c n k' := by
  cases h with
  | left hung => exact .left (keeps.hungUp.trans hung)
  | returned past => exact .returned (by rw [keeps.returned]; exact past)
  | replied reached reply =>
      exact .replied (by rw [keeps.returned]; exact reached) (keeps.outbox reply)
  | near m b waiting known now found close => exact near m b waiting known now found close

theorem Within.keeps (h : s.Within c n k) (keeps : Keeps (s.links c) (s'.links c))
    (block : ∀ b, s.blocks c = some b → s'.blocks c = some b) : s'.Within c n k := by
  refine h.advance keeps fun m b waiting known now found close => ?_
  exact .near m b (keeps.waiting.trans waiting) known (by rw [keeps.returned]; exact now)
    (block b found) close

/-- A call of the client: it can only give up, or take the reply. -/
theorem Within.client (h : s.Within c n k) {l : Link}
    (hungUp : (s.links c).hungUp = true → l.hungUp = true)
    (returned : (s.links c).returned.length ≤ l.returned.length)
    (takes : (s.links c).returned.length < l.returned.length ∨
      ((s.links c).outbox ≠ [] → l.outbox ≠ []) ∧
        ∀ m, (s.links c).waiting = some m → l.waiting = some m) :
    (s.setLink c l).Within c n k := by
  have link : (s.setLink c l).links c = l := links_setLink_self ..
  have past (lt : n < l.returned.length) : (s.setLink c l).Within c n k := by
    refine .returned ?_
    rw [link]
    exact lt
  cases h with
  | left hung =>
      refine .left ?_
      rw [link]
      exact hungUp hung
  | returned before => exact past (before.trans_le returned)
  | replied reached reply =>
      rcases takes with lt | ⟨outbox, _⟩
      · exact past (reached.trans_lt lt)
      · refine .replied ?_ ?_ <;> rw [link]
        · exact reached.trans returned
        · exact outbox reply
  | near m b waits known now found close =>
      rcases takes with lt | ⟨_, waiting⟩
      · exact past (now.symm.le.trans_lt lt)
      · by_cases lt : n < l.returned.length
        · exact past lt
        · refine .near m b ?_ known ?_ found close <;> rw [link]
          · exact waiting m waits
          · omega

theorem within_work (h : s.Flow c) (custody : s.Custody c) (found : s.blocks c = some b)
    (within : s.Within c n k) {opened : Except Int Nat}
    (next : s.work c b stack opened = some s') : s'.Within c n (k - 1) := by
  have keeps := keeps_work next c
  refine within.advance keeps fun m b₁ waiting known now found₁ close => ?_
  obtain rfl := Option.some.inj (found.symm.trans found₁)
  by_cases silent : (s.links c).outbox = []
  · cases here : (s.links c).hungUp with
    | true => exact .left (keeps.hungUp.trans here)
    | false =>
        subst now
        exact (work_nears h custody found waiting known here silent next).mono
          (Nat.sub_le_sub_right close 1)
  · exact .replied (by rw [keeps.returned, now]) (keeps.outbox silent)

theorem within_receive (within : s.Within c n k) (next : s.receive c = some s') :
    s'.Within c n k := by
  obtain ⟨m, _, rfl, _⟩ := receive_cases next
  have longer : (s.links c).returned.length <
      ((s.links c).returned ++ [(m, (s.links c).outbox.head?)]).length := by
    rw [List.length_append]
    exact Nat.lt_succ_self _
  exact within.client id longer.le (Or.inl longer)

theorem within_step (sound : s.Sound) (h : s.Flow c) (within : s.Within c n k) {a : Action}
    (guard : s.LeaverFindsFree a) (orderly : a.strays c = false) (next : s.step a = some s') :
    s'.Within c n (if a.serves c then k - 1 else k) := by
  have acts := step_acts sound guard next
  cases a with
  | work d stack opened =>
      obtain ⟨b, found, worked⟩ := Option.bind_eq_some_iff.mp next
      by_cases own : d = c
      · subst own
        have serves : Action.serves d (.work d stack opened) = true := decide_eq_true rfl
        rw [if_pos serves]
        exact within_work h (sound.custody d) found within worked
      · have other : ¬ Action.serves c (.work d stack opened) = true := fun same =>
          own (of_decide_eq_true same)
        rw [if_neg other]
        exact within.untouched (acts.others c (Ne.symm own))
  | connect =>
      cases next
      exact within.keeps (.refl _) fun _ found => found
  | call d m =>
      obtain ⟨free, same⟩ := Option.ite_none_right_eq_some.mp next
      obtain rfl := Option.some.inj same
      by_cases own : c = d
      · subst own
        simp only [Bool.and_eq_true, Option.isNone_iff_eq_none] at free
        refine within.client id (Nat.le_refl _) (Or.inr ⟨id, fun m' waiting => ?_⟩)
        rw [free.2] at waiting
        cases waiting
      · exact within.untouched (acts.others c own)
  | write d bytes =>
      exact within.untouched (acts.others c fun own => of_decide_eq_false orderly own.symm)
  | receive d =>
      obtain ⟨_, next⟩ := Option.ite_none_right_eq_some.mp next
      by_cases own : c = d
      · subst own
        exact within_receive within next
      · exact within.untouched (acts.others c own)
  | hangUp d =>
      obtain ⟨_, same⟩ := Option.ite_none_right_eq_some.mp next
      obtain rfl := Option.some.inj same
      by_cases own : c = d
      · subst own
        exact within.client (fun _ => rfl) (Nat.le_refl _) (Or.inr ⟨id, fun _ => id⟩)
      · exact within.untouched (acts.others c own)
  | accept cfd =>
      obtain ⟨_, same⟩ := Option.ite_none_right_eq_some.mp next
      obtain rfl := Option.some.inj same
      exact within.keeps (.refl _) fun _ found => found
  | finishAccept pid =>
      obtain ⟨cfd, arriving, rfl⟩ := step_finishAccept next
      by_cases own : c = s.actor (.finishAccept pid)
      · rw [← own] at arriving ⊢
        refine within.keeps (keeps_finishAccept s cfd pid c) fun b found => ?_
        exact absurd ((sound.vacant_of_accepting arriving).1.symm.trans found)
          (Option.some_ne_none b).symm
      · exact within.untouched (acts.others c own)

theorem run_within {bs : List Action} (sound : s.Sound) (h : s.Flow c)
    (within : s.Within c n k) (ran : Runs.run step s bs = some s')
    (guarded : ∀ t a, Runs.Takes step s bs t a → t.LeaverFindsFree a)
    (orderly : ∀ a ∈ bs, a.strays c = false) :
    s'.Within c n (k - bs.countP (Action.serves c)) := by
  induction bs generalizing s k with
  | nil =>
      obtain rfl := Option.some.inj ran
      exact within
  | cons a bs ih =>
      obtain ⟨t, next, rest⟩ := Option.bind_eq_some_iff.mp ran
      obtain ⟨straight, orderly⟩ := List.forall_mem_cons.mp orderly
      have here : s.LeaverFindsFree a := guarded s a
        ((Runs.takes_cons s s a a bs).mpr (Or.inl ⟨rfl, rfl, by rw [next]; rfl⟩))
      have later : ∀ u e, Runs.Takes step t bs u e → u.LeaverFindsFree e := fun u e taken =>
        guarded u e ((Runs.takes_cons s u a e bs).mpr (Or.inr ⟨t, next, taken⟩))
      have last := ih (sound.acts (step_acts sound here next))
        (step_flow sound h here straight next) (within_step sound h within here straight next)
        rest later orderly
      refine last.mono ?_
      rw [List.countP_cons]
      split <;> omega

/-- The reply to a call. -/
theorem Within.done (h : s.Within c n 0) (custody : s.Custody c) :
    (s.links c).hungUp = true ∨ n < (s.links c).returned.length ∨ (s.links c).outbox ≠ [] := by
  cases h with
  | left hung => exact Or.inl hung
  | returned past => exact Or.inr (Or.inl past)
  | replied _ reply => exact Or.inr (Or.inr reply)
  | near m b _ _ _ found close =>
      have serves := custody.serves found
      refine Or.inl ?_
      cases point : b.point with
      | leaving => exact serves.leaving point
      | clearing =>
          cases closed : (s.links c).closed with
          | true => exact (serves.gone closed).1
          | false => exact absurd point (serves.seated closed).2.1
      | idle | opening _ | tracking _ | replying _ _ | releasing _ | testing =>
          rw [point] at close
          exact absurd close (Nat.not_succ_le_zero _)

theorem due_le_six (p : Point) : p.due ≤ 6 := by
  cases p <;> exact Nat.le_of_ble_eq_true rfl

/-- The call of a client that was admitted is answered within six steps of its block,
whatever happens in between, unless the client gives it up; and until the reply is there the
block has a step to take, be it that `open` fails or returns a descriptor that is not open. -/
theorem answered_within_six {as bs : List Action} (ran : Runs.run step {} as = some s)
    (ran' : Runs.run step s bs = some s')
    (guarded : ∀ t a, Runs.Takes step {} (as ++ bs) t a → t.LeaverFindsFree a)
    (orderly : ∀ a ∈ as ++ bs, a.strays c = false) (waiting : (s.links c).waiting = some m)
    (known : m.Known) (admitted : s.blocks c = some b) :
    (6 ≤ bs.countP (Action.serves c) → (s'.links c).hungUp = true ∨
      (s.links c).returned.length < (s'.links c).returned.length ∨ (s'.links c).outbox ≠ []) ∧
    ((s.links c).hungUp = false → (s.links c).outbox = [] →
      ∀ stack opened, (∀ fd : Nat, opened = .ok fd → s.files fd = none) →
        (s.step (.work c stack opened)).isSome) := by
  obtain ⟨straight, straight'⟩ := List.forall_mem_append.mp orderly
  obtain ⟨sound, h⟩ := run_flow ran
    (fun t a taken => guarded t a (Runs.takes_append_left bs taken)) straight
  constructor
  · intro enough
    have near : s.Within c (s.links c).returned.length 6 :=
      .near m b waiting known rfl admitted (due_le_six _)
    have later : ∀ t a, Runs.Takes step s bs t a → t.LeaverFindsFree a := fun t a taken =>
      guarded t a (Runs.takes_append_right ran taken)
    have last := run_within sound h near ran' later straight'
    rw [Nat.sub_eq_zero_of_le enough] at last
    have sound' : s'.Sound := Runs.run_invariant_takes
      (fun _ _ _ h guard next => h.acts (step_acts h guard next)) sound ran' later
    exact last.done (sound'.custody c)
  · intro here silent stack opened fresh
    rw [step, admitted]
    exact work_enabled h (sound.custody c) admitted waiting known here silent fresh

theorem answered_within_six_two_clients :
    ∃ s s', Runs.run step {} asking = some s ∧ Runs.run step s serving = some s' ∧
      (s.links 1).returned.length = 0 ∧ ((s'.links 1).hungUp = true ∨
        (s.links 1).returned.length < (s'.links 1).returned.length ∨
          (s'.links 1).outbox ≠ []) ∧
      (s.step (.work 1 (fun _ => 0) (.ok 8))).isSome := by
  have asked : (Runs.run step {} asking).map (fun s => ((s.links 1).waiting.map SeatdMsg.type,
      (s.blocks 1).isSome, (s.links 1).returned.length, (s.links 1).hungUp,
        (s.links 1).outbox.isEmpty, (s.files 8).isNone)) =
          some (some msgOpenDevice, true, 0, false, true, true) := by decide +kernel
  have ends : (Runs.run step {} (asking ++ serving)).isSome = true := by decide +kernel
  have guarded : Runs.allTaken step LeaverFindsFree {} (asking ++ serving) = true := by
    decide +kernel
  have orderly : ∀ a ∈ asking ++ serving, a.strays 1 = false := by decide +kernel
  have enough : 6 ≤ serving.countP (Action.serves 1) := by decide +kernel
  obtain ⟨s, ran, facts⟩ := Option.map_eq_some_iff.mp asked
  obtain ⟨type, facts⟩ := Prod.mk.inj facts
  obtain ⟨block, facts⟩ := Prod.mk.inj facts
  obtain ⟨length, facts⟩ := Prod.mk.inj facts
  obtain ⟨here, facts⟩ := Prod.mk.inj facts
  obtain ⟨silent, unused⟩ := Prod.mk.inj facts
  obtain ⟨m, waiting, device⟩ := Option.map_eq_some_iff.mp type
  obtain ⟨b, admitted⟩ := Option.isSome_iff_exists.mp block
  rw [Runs.run_append, ran, Option.bind_some] at ends
  obtain ⟨s', ran'⟩ := Option.isSome_iff_exists.mp ends
  obtain ⟨within, enabled⟩ := answered_within_six ran ran'
    (fun _ _ taken => Runs.takes_of_allTaken guarded taken) orderly waiting (Or.inl device)
    admitted
  refine ⟨s, s', ran, ran', length, within enough, ?_⟩
  refine enabled here (List.isEmpty_iff.mp silent) _ _ fun fd same => ?_
  obtain rfl := Except.ok.inj same
  exact Option.isNone_iff_eq_none.mp unused

end Protocol
end LunaOS.Seatd
