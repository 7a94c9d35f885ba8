import LunaOS.Seatd.Replies

/-!
Which orders of steps are safe. Once a slot has been cleared, only `accept_client` fills it
again. So where `accept_client` takes no slot while the block of a client that has left has
its test to make, every such test finds the slot free, and nothing goes wrong that the order
of steps could bring about. The queue of the server is concurrent and allows the other order
too, and then a client can lose its connection that neither left nor took anyone's slot.
-/
namespace LunaOS.Seatd
namespace Protocol

/-- `accept_client` takes a slot only while no source of a client that has left is about to
test its own. -/
def AcceptsApart (s : Protocol) : Action → Prop
  | .finishAccept _ => ∀ c < s.accepted, ∀ b ∈ s.blocks c, b.point = .testing →
      (s.links c).closed = false
  | _ => True

instance (s : Protocol) : (a : Action) → Decidable (s.AcceptsApart a)
  | .finishAccept _ => inferInstanceAs (Decidable (∀ c < s.accepted, ∀ b ∈ s.blocks c,
      b.point = .testing → (s.links c).closed = false))
  | .connect | .call _ _ | .write _ _ | .receive _ | .hangUp _ | .accept _ | .work _ _ _ =>
      inferInstanceAs (Decidable True)

/-- The slot of a client that has left is free until its source is tested. -/
def Freed (s : Protocol) : Prop :=
  ∀ c b, s.blocks c = some b → b.point = .testing → (s.links c).closed = true →
    (s.clients b.slot).fd < 0

variable {s s' : Protocol} {c : Nat} {b b' : Block} {i : Fin maxClients} {a : Action}
variable {stack : Fin msgSize → UInt8} {opened : Except Int Nat} {pid : Int}

theorem Freed.finds_free (h : s.Freed) (a : Action) : s.LeaverFindsFree a := by
  cases a with
  | work c stack opened => exact fun b found testing closed => h c b found testing closed
  | connect | call _ _ | write _ _ | receive _ | hangUp _ | accept _ | finishAccept _ => trivial

/-- A block fills no slot. -/
theorem work_frees (next : s.work c b stack opened = some s')
    (free : (s.clients i).fd < 0) : (s'.clients i).fd < 0 := by
  obtain ⟨_, _, worked⟩ := work_cases next
  cases worked with
  | received _ got => exact (congrFun (recv_clients got) i).symm ▸ free
  | called made => exact (congrFun (openDevice_clients made) i).symm ▸ free
  | tracked fd =>
      have kept : ((s.clients b.slot).track fd).fd = (s.clients b.slot).fd := track_fd ..
      exact (Slots.read_update_of_eq Client.fd kept i).trans_lt free
  | replied code fd => exact (congrFun (sendmsg_clients s _ _) i).symm ▸ free
  | released fd | left => exact (congrFun (close_clients s _) i).symm ▸ free
  | cleared =>
      change ((s.setClient b.slot _).clients i).fd < 0
      rw [clients_setClient]
      split
      · exact Int.negSucc_lt_zero 0
      · exact free
  | tested => exact free

theorem work_slot (next : s.work c b stack opened = some s') :
    ∃ b', s'.blocks c = some b' ∧ b'.slot = b.slot := by
  obtain ⟨_, _, worked⟩ := work_cases next
  cases worked with
  | received _ _ | called _ | tracked _ | replied _ _ | released _ | left | cleared | tested =>
      exact ⟨_, blocks_setBlock_self .., rfl⟩

/-- The test of a block that owned its slot comes after the slot was cleared; one that did
not own it makes no other step than its test. -/
theorem freed_of_own_work (h : s.Sound) (acts : Acts c s s') (found : s.blocks c = some b)
    (next : s.work c b stack opened = some s') (found' : s'.blocks c = some b')
    (testing : b'.point = .testing) (closed : (s'.links c).closed = true) :
    (s'.clients b'.slot).fd < 0 := by
  obtain ⟨b₁, found₁, slot⟩ := work_slot next
  obtain rfl := Option.some.inj (found₁.symm.trans found')
  have lost : ¬ s'.Owns c b₁ := by
    rintro (open' | clearing)
    · exact Bool.false_ne_true (open'.symm.trans closed)
    · rw [testing] at clearing
      cases clearing
  by_cases owns : s.Owns c b
  · rcases acts.keeps b found owns with ⟨b₂, found₂, owns', _⟩ | freed
    · obtain rfl := Option.some.inj (found₂.symm.trans found')
      exact absurd owns' lost
    · rw [slot]
      exact freed
  · have closed₀ : (s.links c).closed = true := by
      cases closed₀ : (s.links c).closed with
      | true => rfl
      | false => exact absurd (Or.inl closed₀) owns
    cases (((h.custody c).serves found).gone closed₀).2 with
    | clearing here _ _ => exact absurd (Or.inr here) owns
    | testing here _ =>
        rw [work, here] at next
        obtain rfl := Option.some.inj next
        obtain rfl := Option.some.inj ((blocks_setBlock_self ..).symm.trans found')
        cases testing
    | finished here dead =>
        rw [work, here, dead] at next
        cases next

theorem freed_of_work (h : s.Sound) (freed : s.Freed) (acts : Acts c s s')
    (found : s.blocks c = some b) (next : s.work c b stack opened = some s') : s'.Freed := by
  intro d b' found' testing closed
  by_cases own : d = c
  · subst own
    exact freed_of_own_work h acts found next found' testing closed
  · have same := acts.others d own
    rw [same.block] at found'
    rw [same.link] at closed
    exact work_frees next (freed d b' found' testing closed)

/-- A step of a client changes no block, and closes nothing. -/
theorem Freed.client (h : s.Freed) {l : Link} (closed : l.closed = (s.links c).closed) :
    (s.setLink c l).Freed := by
  intro d b found testing ended
  refine h d b found testing ?_
  rw [links_setLink] at ended
  split at ended
  · rename_i own
    rw [own, ← closed]
    exact ended
  · exact ended

theorem Freed.finishAccept (apart : s.AcceptsApart (.finishAccept pid)) (h : s.Sound)
    {cfd : Int} (arriving : s.accepting = some (c, cfd))
    (acts : Acts c s (s.finishAccept c cfd pid)) : (s.finishAccept c cfd pid).Freed := by
  intro d b found testing closed
  by_cases own : d = c
  · subst own
    obtain ⟨none, vacant⟩ := h.vacant_of_accepting arriving
    obtain ⟨_, file, _⟩ := vacant.arriving cfd arriving
    unfold Protocol.finishAccept at found
    cases scan : s.freeSlot with
    | some i =>
        rw [scan] at found
        obtain rfl := Option.some.inj ((blocks_setBlock_self ..).symm.trans found)
        cases testing
    | none =>
        rw [scan, close, file] at found
        exact absurd (none.symm.trans found) (Option.some_ne_none b).symm
  · have same := acts.others d own
    rw [same.block] at found
    rw [same.link] at closed
    have before := ((h.custody d).serves found).accepted
    exact absurd ((apart d before b found testing).symm.trans closed) Bool.false_ne_true

theorem step_freed (h : s.Sound) (freed : s.Freed) (apart : s.AcceptsApart a)
    (next : s.step a = some s') : s'.Freed := by
  have acts := step_acts h (freed.finds_free a) next
  cases a with
  | connect =>
      cases next
      exact freed
  | call c _ | write c _ | receive c | hangUp c =>
      obtain ⟨l, rfl, closed, _⟩ := step_client rfl next
      exact freed.client closed
  | accept cfd =>
      obtain ⟨_, same⟩ := Option.ite_none_right_eq_some.mp next
      obtain rfl := Option.some.inj same
      exact freed
  | finishAccept pid =>
      obtain ⟨cfd, arriving, rfl⟩ := step_finishAccept next
      exact Freed.finishAccept apart h arriving acts
  | work c stack opened =>
      obtain ⟨b, found, worked⟩ := Option.bind_eq_some_iff.mp next
      exact freed_of_work h freed acts found worked

theorem apart_finds_free {as : List Action}
    (apart : ∀ t a, Runs.Takes step {} as t a → t.AcceptsApart a) (t : Protocol) (a : Action)
    (taken : Runs.Takes step {} as t a) : t.LeaverFindsFree a := by
  have kept (t : Protocol) (a : Action) (t' : Protocol) (h : t.Sound ∧ t.Freed)
      (apart : t.AcceptsApart a) (next : t.step a = some t') : t'.Sound ∧ t'.Freed :=
    ⟨h.1.acts (step_acts h.1 (h.2.finds_free a) next), step_freed h.1 h.2 apart next⟩
  have start : Freed {} := by
    intro c b found
    cases found
  exact (Runs.invariant_of_takes kept ⟨sound_start, start⟩ apart taken).2.finds_free a

/-- In every run in which `accept_client` takes no slot before the tests that are due, these
find the slot free, all that the server has open is accounted for, and every client that
makes one call at a time gets the answers to its calls. -/
theorem accepts_apart_suffice {as : List Action} (ran : Runs.run step {} as = some s)
    (apart : ∀ t a, Runs.Takes step {} as t a → t.AcceptsApart a) :
    (∀ t a, Runs.Takes step {} as t a → t.LeaverFindsFree a) ∧ s.Accounted ∧
      ∀ c, (∀ a ∈ as, a.strays c = false) → s.Answered c := by
  have guarded := apart_finds_free apart
  refine ⟨guarded, (run_sound ran guarded).accounted, fun c orderly => ?_⟩
  exact (run_flow ran guarded orderly).2.answered

/-- A third client takes the slot of the first, and its descriptor, once that has been tested. -/
def following : List Action :=
  asking ++ serving ++ [.connect, .accept 5, .finishAccept 102,
    .call 2 (openRequest (bytes "/dev/dri/card0")).toSeatdMsg] ++ works 2 5 (.ok 9) ++ [.receive 2]

theorem accepts_apart_suffice_three_clients :
    ∃ s, Runs.run step {} following = some s ∧
      (s.links 2).returned.map (fun call => deviceOf call.2) =
        [some (.device (bytes "/dev/dri/card0") 2 0)] ∧
      (∀ t a, Runs.Takes step {} following t a → t.LeaverFindsFree a) ∧ s.Accounted ∧
      ∀ c, (∀ a ∈ following, a.strays c = false) → s.Answered c := by
  have ends : (Runs.run step {} following).map (fun s =>
      (s.links 2).returned.map fun call => deviceOf call.2) =
        some [some (.device (bytes "/dev/dri/card0") 2 0)] := by decide +kernel
  have apart : Runs.allTaken step AcceptsApart {} following = true := by decide +kernel
  obtain ⟨s, ran, final⟩ := Option.map_eq_some_iff.mp ends
  exact ⟨s, ran, final,
    accepts_apart_suffice ran fun _ _ taken => Runs.takes_of_allTaken apart taken⟩

/-- The second client takes the slot of the first before that has been tested, so two blocks
see it leave. By the time the second of them closes the descriptor, it is the third one's. -/
def overtaken : List Action :=
  [.connect, .connect, .connect, .accept 5, .finishAccept 100, .hangUp 0] ++ works 0 3 (.ok 7) ++
  [.accept 5, .finishAccept 101] ++ works 0 1 (.ok 7) ++ [.hangUp 1] ++ works 0 1 (.ok 7) ++
  works 1 2 (.ok 7) ++ [.accept 5, .finishAccept 102] ++ works 0 1 (.ok 7) ++
  [.call 2 (openRequest (bytes "/dev/dri/card0")).toSeatdMsg, .receive 2]

/-- A client that has its end open and a block to serve it reads the end of the stream. -/
theorem client_cut_off :
    ∃ s, Runs.run step {} overtaken = some s ∧ (∀ a ∈ overtaken, a.strays 2 = false) ∧
      (s.links 2).hungUp = false ∧ (s.links 2).returned.map Prod.snd = [none] ∧
      ¬ s.Answered 2 := by
  have ends : (Runs.run step {} overtaken).map (fun s => ((s.links 2).hungUp,
      (s.links 2).returned.map Prod.snd, (s.blocks 2).isSome)) = some (false, [none], true) := by
    decide +kernel
  have orderly : ∀ a ∈ overtaken, a.strays 2 = false := by decide +kernel
  obtain ⟨s, ran, final⟩ := Option.map_eq_some_iff.mp ends
  obtain ⟨here, final⟩ := Prod.mk.inj final
  obtain ⟨cut, served⟩ := Prod.mk.inj final
  refine ⟨s, ran, orderly, here, cut, fun answered => ?_⟩
  have ended : none ∈ (s.links 2).returned.map Prod.snd := cut ▸ List.mem_singleton.mpr rfl
  obtain ⟨⟨m, r⟩, mem, rfl⟩ := List.mem_map.mp ended
  rw [(answered.turnedAway m mem).1] at served
  cases served

end Protocol
end LunaOS.Seatd
