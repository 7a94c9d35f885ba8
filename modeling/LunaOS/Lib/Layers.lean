import LunaOS.Lib.Dialogues

/-!
A server that works in pieces, below the programs that talk to it. The server of
`Dialogues` answers a question at once; a machine takes it from a client, works on it while
others come and go, and gives the answer back later. A machine follows the server if each of
its pieces is nothing or one whole answer to a question that it has taken. Clients on a
machine that follows a server see what sessions with this server see, whatever the
questions and the answers are written in on the way between the two.
-/
namespace Layers
open Linearize Dialogues

variable {M Work Server Question Answer Asked Told Op Result : Type}

structure Machine (M Work Asked Told : Type) where
  enter : M → Nat → Asked → Option M
  work : M → Work → Option M
  leave : M → Nat → Option (M × Told)

/-- The machine in a state of `Rel` with the server, and how far it is with each client. -/
structure Follows (machine : Machine M Work Asked Told) (serve : Server → Asked → Server × Told)
    (Rel : M → Server → (Nat → Status Asked Told) → Prop) : Prop where
  enter : ∀ {m m' : M} {s : Server} {status : Nat → Status Asked Told} {t : Nat} {q : Asked},
    Rel m s status → machine.enter m t q = some m' →
      status t = .idle ∧ Rel m' s (Function.update status t (.pending q))
  work : ∀ {m m' : M} {s : Server} {status : Nat → Status Asked Told} {w : Work},
    Rel m s status → machine.work m w = some m' →
      Rel m' s status ∨ ∃ t q, status t = .pending q ∧
        Rel m' (serve s q).1 (Function.update status t (.answered (serve s q).2))
  leave : ∀ {m m' : M} {s : Server} {status : Nat → Status Asked Told} {t : Nat} {a : Told},
    Rel m s status → machine.leave m t = some (m', a) →
      status t = .answered a ∧ Rel m' s (Function.update status t .idle)

/-- The server behind a connection that sends the questions and receives the answers. -/
def linked (serve : Server → Asked → Server × Told) (send : Question → Asked)
    (receive : Question → Told → Answer) (s : Server) (q : Question) : Server × Answer :=
  ((serve s (send q)).1, receive q (serve s (send q)).2)

/-- A client waits while the machine has its question. -/
inductive Client (Question Answer Op Result : Type) where
  | idle
  | talking (op : Op) (d : Dialogue Question Answer Result)
  | waiting (op : Op) (q : Question) (next : Answer → Dialogue Question Answer Result)

/-- A machine with its clients. `history` is what these saw; no step reads it. -/
structure Stack (M Question Answer Op Result : Type) where
  machine : M
  client : Nat → Client Question Answer Op Result := fun _ => .idle
  history : List (Event Nat Op Result) := []

inductive Action (Work Op : Type) where
  | call (t : Nat) (op : Op)
  | ask (t : Nat)
  | work (w : Work)
  | answer (t : Nat)
  | ret (t : Nat)

namespace Stack

def goto (k : Stack M Question Answer Op Result) (t : Nat)
    (client : Client Question Answer Op Result) : Stack M Question Answer Op Result :=
  { k with client := Function.update k.client t client }

def step (machine : Machine M Work Asked Told) (send : Question → Asked)
    (receive : Question → Told → Answer) (program : Op → Dialogue Question Answer Result)
    (k : Stack M Question Answer Op Result) :
    Action Work Op → Option (Stack M Question Answer Op Result)
  | .call t op =>
      match k.client t with
      | .idle =>
          some { k.goto t (.talking op (program op)) with history := k.history ++ [.call t op] }
      | _ => none
  | .ask t =>
      match k.client t with
      | .talking op (.ask q next) =>
          (machine.enter k.machine t (send q)).map fun m =>
            { k.goto t (.waiting op q next) with machine := m }
      | _ => none
  | .work w => (machine.work k.machine w).map fun m => { k with machine := m }
  | .answer t =>
      match k.client t with
      | .waiting op q next =>
          (machine.leave k.machine t).map fun (m, a) =>
            { k.goto t (.talking op (next (receive q a))) with machine := m }
      | _ => none
  | .ret t =>
      match k.client t with
      | .talking _ (.done result) =>
          some { k.goto t .idle with history := k.history ++ [.ret t result] }
      | _ => none

/-- What a client on the machine is to the server's client, by how far the machine is. -/
def Matches (send : Question → Asked) (receive : Question → Told → Answer) :
    Status Asked Told → Client Question Answer Op Result →
      Talk Question Answer Op Result → Prop
  | .idle, .idle, talk => talk = .idle
  | .idle, .talking op d, talk => talk = .talking op d
  | .pending p, .waiting op q next, talk => p = send q ∧ talk = .talking op (.ask q next)
  | .answered a, .waiting op q next, talk => talk = .talking op (next (receive q a))
  | _, _, _ => False

variable {machine : Machine M Work Asked Told} {serve : Server → Asked → Server × Told}
  {Rel : M → Server → (Nat → Status Asked Told) → Prop} {send : Question → Asked}
  {receive : Question → Told → Answer} {program : Op → Dialogue Question Answer Result}
  {k k' : Stack M Question Answer Op Result} {o : Sessions Server Question Answer Op Result}
  {t : Nat}

/-- The sessions that a stack stands for. -/
structure Refines (Rel : M → Server → (Nat → Status Asked Told) → Prop)
    (send : Question → Asked) (receive : Question → Told → Answer)
    (k : Stack M Question Answer Op Result) (o : Sessions Server Question Answer Op Result)
    (status : Nat → Status Asked Told) : Prop where
  rel : Rel k.machine o.server status
  same : k.history = o.history
  client : ∀ t, Matches send receive (status t) (k.client t) (o.talk t)

/-- One client goes on, with the machine and with the server. -/
theorem matches_update {status : Nat → Status Asked Told}
    {client : Nat → Client Question Answer Op Result} {talk : Nat → Talk Question Answer Op Result}
    (others : ∀ u, Matches send receive (status u) (client u) (talk u))
    {st : Status Asked Told} {c : Client Question Answer Op Result}
    {tk : Talk Question Answer Op Result} (mine : Matches send receive st c tk) (t u : Nat) :
    Matches send receive (Function.update status t st u) (Function.update client t c u)
      (Function.update talk t tk u) := by
  by_cases same : u = t
  · rw [same, Function.update_self, Function.update_self, Function.update_self]
    exact mine
  · rw [Function.update_of_ne same, Function.update_of_ne same, Function.update_of_ne same]
    exact others u

/-- What a step of a stack is for the sessions: a step of theirs, or nothing. -/
def Follow (serve : Server → Asked → Server × Told)
    (Rel : M → Server → (Nat → Status Asked Told) → Prop) (send : Question → Asked)
    (receive : Question → Told → Answer) (program : Op → Dialogue Question Answer Result)
    (k' : Stack M Question Answer Op Result) (o : Sessions Server Question Answer Op Result) :
    Prop :=
  ∃ as o' status, Runs.run (Sessions.step (linked serve send receive) program) o as = some o' ∧
    Refines Rel send receive k' o' status

section
variable {status : Nat → Status Asked Told}

theorem follow_call (known : Refines Rel send receive k o status) {op : Op}
    (here : k.client t = .idle) :
    Follow serve Rel send receive program
      { k.goto t (.talking op (program op)) with history := k.history ++ [.call t op] } o := by
  have mine := known.client t
  rw [here] at mine
  cases far : status t with
  | pending q | answered a =>
      rw [far] at mine
      cases mine
  | idle =>
      rw [far] at mine
      have idle : o.talk t = .idle := mine
      refine ⟨[.call t op],
        { o.goto t (.talking op (program op)) with history := o.history ++ [.call t op] },
        status, ?_, known.rel, ?_, ?_⟩
      · rw [Runs.run_cons, Sessions.step, idle]
        rfl
      · exact congrArg (· ++ [Event.call t op]) known.same
      · have goes : Matches send receive (.idle : Status Asked Told)
            (.talking op (program op)) (.talking op (program op)) := rfl
        have all := matches_update known.client goes t
        rwa [← far, Function.update_eq_self] at all

theorem follow_ask (follows : Follows machine serve Rel)
    (known : Refines Rel send receive k o status) {op : Op} {q : Question}
    {next : Answer → Dialogue Question Answer Result}
    (here : k.client t = .talking op (.ask q next)) {m : M}
    (enters : machine.enter k.machine t (send q) = some m) :
    Follow serve Rel send receive program
      { k.goto t (.waiting op q next) with machine := m } o := by
  obtain ⟨far, rel⟩ := follows.enter known.rel enters
  have mine := known.client t
  rw [here, far] at mine
  have talks : o.talk t = .talking op (.ask q next) := mine
  have goes : Matches send receive (.pending (send q) : Status Asked Told)
      (.waiting op q next) (o.talk t) := ⟨rfl, talks⟩
  have all := matches_update known.client goes t
  rw [Function.update_eq_self] at all
  exact ⟨[], o, _, rfl, rel, known.same, all⟩

theorem follow_work (follows : Follows machine serve Rel)
    (known : Refines Rel send receive k o status) {w : Work} {m : M}
    (works : machine.work k.machine w = some m) :
    Follow serve Rel send receive program { k with machine := m } o := by
  cases follows.work known.rel works with
  | inl rel => exact ⟨[], o, status, rfl, rel, known.same, known.client⟩
  | inr done =>
      obtain ⟨t, p, far, rel⟩ := done
      have mine := known.client t
      rw [far] at mine
      cases here : k.client t with
      | idle | talking op d =>
          rw [here] at mine
          cases mine
      | waiting op q next =>
          rw [here] at mine
          obtain ⟨rfl, talks⟩ := mine
          have goes : Matches send receive (.answered (serve o.server (send q)).2)
              (k.client t) (.talking op (next (linked serve send receive o.server q).2)) := by
            rw [here]
            rfl
          have all := matches_update known.client goes t
          rw [Function.update_eq_self] at all
          refine ⟨[.ask t],
            { o.goto t (.talking op (next (linked serve send receive o.server q).2)) with
              server := (linked serve send receive o.server q).1 }, _, ?_, rel, known.same, all⟩
          rw [Runs.run_cons, Sessions.step, talks]
          rfl

theorem follow_answer (follows : Follows machine serve Rel)
    (known : Refines Rel send receive k o status) {op : Op} {q : Question}
    {next : Answer → Dialogue Question Answer Result} (here : k.client t = .waiting op q next)
    {m : M} {a : Told} (leaves : machine.leave k.machine t = some (m, a)) :
    Follow serve Rel send receive program
      { k.goto t (.talking op (next (receive q a))) with machine := m } o := by
  obtain ⟨far, rel⟩ := follows.leave known.rel leaves
  have mine := known.client t
  rw [here, far] at mine
  have talks : o.talk t = .talking op (next (receive q a)) := mine
  have goes : Matches send receive (.idle : Status Asked Told)
      (.talking op (next (receive q a))) (o.talk t) := talks
  have all := matches_update known.client goes t
  rw [Function.update_eq_self] at all
  exact ⟨[], o, _, rfl, rel, known.same, all⟩

theorem follow_ret (known : Refines Rel send receive k o status) {op : Op} {result : Result}
    (here : k.client t = .talking op (.done result)) :
    Follow serve Rel send receive program
      { k.goto t .idle with history := k.history ++ [.ret t result] } o := by
  have mine := known.client t
  rw [here] at mine
  cases far : status t with
  | pending q | answered a =>
      rw [far] at mine
      cases mine
  | idle =>
      rw [far] at mine
      have talks : o.talk t = .talking op (.done result) := mine
      refine ⟨[.ret t], { o.goto t .idle with history := o.history ++ [.ret t result] }, status,
        ?_, known.rel, ?_, ?_⟩
      · rw [Runs.run_cons, Sessions.step, talks]
        rfl
      · exact congrArg (· ++ [Event.ret t result]) known.same
      · have goes : Matches send receive (.idle : Status Asked Told)
            (.idle : Client Question Answer Op Result) .idle := rfl
        have all := matches_update known.client goes t
        rwa [← far, Function.update_eq_self] at all

theorem follow_step (follows : Follows machine serve Rel)
    (known : Refines Rel send receive k o status) {a : Action Work Op}
    (next : step machine send receive program k a = some k') :
    Follow serve Rel send receive program k' o := by
  cases a with
  | call t op =>
      simp only [step] at next
      cases here : k.client t with
      | talking _ _ | waiting _ _ _ =>
          rw [here] at next
          cases next
      | idle =>
          rw [here] at next
          exact Option.some.inj next ▸ follow_call known here
  | ask t =>
      simp only [step] at next
      cases here : k.client t with
      | idle | waiting _ _ _ =>
          rw [here] at next
          cases next
      | talking op d =>
          rw [here] at next
          cases d with
          | done result => cases next
          | ask q goes =>
              obtain ⟨m, enters, rfl⟩ := Option.map_eq_some_iff.mp next
              exact follow_ask follows known here enters
  | work w =>
      obtain ⟨m, works, rfl⟩ := Option.map_eq_some_iff.mp next
      exact follow_work follows known works
  | answer t =>
      simp only [step] at next
      cases here : k.client t with
      | idle | talking _ _ =>
          rw [here] at next
          cases next
      | waiting op q goes =>
          rw [here] at next
          obtain ⟨⟨m, a⟩, leaves, rfl⟩ := Option.map_eq_some_iff.mp next
          exact follow_answer follows known here leaves
  | ret t =>
      simp only [step] at next
      cases here : k.client t with
      | idle | waiting _ _ _ =>
          rw [here] at next
          cases next
      | talking op d =>
          rw [here] at next
          cases d with
          | ask q goes => cases next
          | done result => exact Option.some.inj next ▸ follow_ret known here

end

/-- Every run of clients on the machine is one of sessions with the server, with the same
history. -/
theorem refines_sessions (follows : Follows machine serve Rel) {m : M} {s : Server}
    (init : Rel m s fun _ => .idle) {as : List (Action Work Op)}
    (ran : Runs.run (step machine send receive program) { machine := m } as = some k) :
    ∃ as' o status,
      Runs.run (Sessions.step (linked serve send receive) program) { server := s } as' =
        some o ∧ Refines Rel send receive k o status := by
  have start : Follow serve Rel send receive program
      ({ machine := m } : Stack M Question Answer Op Result) { server := s } :=
    ⟨[], _, _, rfl, init, rfl, fun _ => rfl⟩
  have keeps (k : Stack M Question Answer Op Result) (a : Action Work Op)
      (k' : Stack M Question Answer Op Result)
      (known : Follow serve Rel send receive program k { server := s })
      (next : step machine send receive program k a = some k') :
      Follow serve Rel send receive program k' { server := s } := by
    obtain ⟨as, o, status, before, known⟩ := known
    obtain ⟨as', o', status', after, known'⟩ := follow_step follows known next
    refine ⟨as ++ as', o', status', ?_, known'⟩
    rw [Runs.run_append, before]
    exact after
  exact Runs.run_invariant keeps start ran

end Stack

end Layers
