import LunaOS.Lib.Linearize
import LunaOS.Lib.Runs

/-!
Programs that talk to a server which others talk to as well. A dialogue asks one
question at a time and goes on with the answer; the sessions of many clients interleave
question by question. A dialogue is atomic for an operation of an abstract object if,
whatever others have asked in between, each of its questions but the last leaves the
object as it is, and the last one does the whole operation. Sessions of atomic dialogues
are linearizable.
-/
namespace Dialogues
open Linearize

variable {Server Question Answer Object Op Result : Type}

inductive Dialogue (Question Answer Result : Type) where
  | done (result : Result)
  | ask (q : Question) (next : Answer → Dialogue Question Answer Result)

namespace Dialogue

def finished : Dialogue Question Answer Result → Bool
  | .done _ => true
  | .ask _ _ => false

/-- Whatever the server is when it is asked, the dialogue comes down to the operation
`op` of the object that the server stands for. -/
def Atomic (serve : Server → Question → Server × Answer) (Inv : Server → Prop)
    (object : Server → Object) (apply : Object → Op → Object × Result) (op : Op) :
    Dialogue Question Answer Result → Prop
  | .done result => ∀ s, Inv s → apply (object s) op = (object s, result)
  | .ask q next => ∀ s, Inv s →
      (∃ result, next (serve s q).2 = .done result ∧
          apply (object s) op = (object (serve s q).1, result)) ∨
        ((next (serve s q).2).finished = false ∧ object (serve s q).1 = object s ∧
          Atomic serve Inv object apply op (next (serve s q).2))

/-- Whatever is answered, only such questions are asked. -/
def Asks (Allowed : Question → Prop) : Dialogue Question Answer Result → Prop
  | .done _ => True
  | .ask q next => Allowed q ∧ ∀ a, Asks Allowed (next a)

/-- A server that answers what is asked in the same way serves as well. -/
theorem Atomic.of_asks {serve serve' : Server → Question → Server × Answer}
    {Inv : Server → Prop} {object : Server → Object} {apply : Object → Op → Object × Result}
    {op : Op} {Allowed : Question → Prop} (same : ∀ s q, Allowed q → serve' s q = serve s q)
    {d : Dialogue Question Answer Result} (asks : d.Asks Allowed)
    (atomic : d.Atomic serve Inv object apply op) : d.Atomic serve' Inv object apply op := by
  induction d with
  | done result => exact atomic
  | ask q next ih =>
      intro s inv
      rw [same s q asks.1]
      exact (atomic s inv).imp_right fun inner =>
        ⟨inner.1, inner.2.1, ih _ (asks.2 _) inner.2.2⟩

/-- An operation under another name. -/
theorem Atomic.rename {Op' : Type} {serve : Server → Question → Server × Answer}
    {Inv : Server → Prop} {object : Server → Object} {apply : Object → Op → Object × Result}
    {name : Op' → Op} {op : Op'} {d : Dialogue Question Answer Result}
    (atomic : d.Atomic serve Inv object apply (name op)) :
    d.Atomic serve Inv object (fun o op => apply o (name op)) op := by
  induction d with
  | done result => exact atomic
  | ask q next ih =>
      exact fun s inv => (atomic s inv).imp_right fun inner =>
        ⟨inner.1, inner.2.1, ih _ inner.2.2⟩

end Dialogue

inductive Talk (Question Answer Op Result : Type) where
  | idle
  | talking (op : Op) (d : Dialogue Question Answer Result)

/-- A server with its clients. `history` is what these saw; no step reads it. -/
structure Sessions (Server Question Answer Op Result : Type) where
  server : Server
  talk : Nat → Talk Question Answer Op Result := fun _ => .idle
  history : List (Event Nat Op Result) := []

inductive Action (Op : Type) where
  | call (t : Nat) (op : Op)
  | ask (t : Nat)
  | ret (t : Nat)

namespace Sessions

def goto (k : Sessions Server Question Answer Op Result) (t : Nat)
    (talk : Talk Question Answer Op Result) : Sessions Server Question Answer Op Result :=
  { k with talk := Function.update k.talk t talk }

def step (serve : Server → Question → Server × Answer)
    (program : Op → Dialogue Question Answer Result)
    (k : Sessions Server Question Answer Op Result) :
    Action Op → Option (Sessions Server Question Answer Op Result)
  | .call t op =>
      match k.talk t with
      | .idle =>
          some { k.goto t (.talking op (program op)) with history := k.history ++ [.call t op] }
      | _ => none
  | .ask t =>
      match k.talk t with
      | .talking op (.ask q next) =>
          some { k.goto t (.talking op (next (serve k.server q).2)) with
            server := (serve k.server q).1 }
      | _ => none
  | .ret t =>
      match k.talk t with
      | .talking _ (.done result) =>
          some { k.goto t .idle with history := k.history ++ [.ret t result] }
      | _ => none

/-- An operation takes effect with the last answer. -/
def statusOf : Talk Question Answer Op Result → Status Op Result
  | .idle => .idle
  | .talking _ (.done result) => .answered result
  | .talking op (.ask _ _) => .pending op

variable {serve : Server → Question → Server × Answer} {Inv : Server → Prop}
  {object : Server → Object} {apply : Object → Op → Object × Result}
  {program : Op → Dialogue Question Answer Result} {o : Object}
  {k k' : Sessions Server Question Answer Op Result} {t : Nat}

/-- The operations that took effect explain the history and leave the object that the
server stands for; what is under way is atomic. -/
structure Explained (serve : Server → Question → Server × Answer) (Inv : Server → Prop)
    (object : Server → Object) (apply : Object → Op → Object × Result) (o : Object)
    (k : Sessions Server Question Answer Op Result) (log : List (Entry Nat Op Result)) :
    Prop where
  seen : Explains apply o k.history log (statusOf ∘ k.talk)
  kept : Inv k.server
  left : object k.server = replay apply o log
  atomic : ∀ t op d, k.talk t = .talking op d → d.finished = false →
    d.Atomic serve Inv object apply op

theorem statusOf_goto (k : Sessions Server Question Answer Op Result) (t : Nat)
    (talk : Talk Question Answer Op Result) :
    statusOf ∘ (k.goto t talk).talk = Function.update (statusOf ∘ k.talk) t (statusOf talk) :=
  Function.comp_update statusOf k.talk t talk

/-- One client goes on; the others have the same under way. -/
theorem atomic_goto {op : Op} {d : Dialogue Question Answer Result}
    (atomic : ∀ t op d, k.talk t = .talking op d → d.finished = false →
      d.Atomic serve Inv object apply op)
    (next : d.finished = false → d.Atomic serve Inv object apply op) (u : Nat) (op' : Op)
    (d' : Dialogue Question Answer Result)
    (there : (k.goto t (.talking op d)).talk u = .talking op' d') (open' : d'.finished = false) :
    d'.Atomic serve Inv object apply op' := by
  replace there : Function.update k.talk t (.talking op d) u = .talking op' d' := there
  by_cases mine : u = t
  · rw [mine, Function.update_self] at there
    obtain ⟨rfl, rfl⟩ := Talk.talking.inj there
    exact next open'
  · rw [Function.update_of_ne mine] at there
    exact atomic u op' d' there open'

theorem explained_call {log : List (Entry Nat Op Result)}
    (known : Explained serve Inv object apply o k log) {op : Op} (idle : k.talk t = .idle)
    (atomic : (program op).Atomic serve Inv object apply op) :
    ∃ log', Explained serve Inv object apply o
      { k.goto t (.talking op (program op)) with history := k.history ++ [.call t op] } log' := by
  have called := known.seen.call t op (congrArg statusOf idle)
  cases first : program op with
  | ask q next =>
      refine ⟨log, ?_, known.kept, known.left, ?_⟩
      · change Explains apply o _ log (statusOf ∘ (k.goto t (.talking op (.ask q next))).talk)
        rw [statusOf_goto]
        exact called
      · exact atomic_goto known.atomic fun _ => first ▸ atomic
  | done result =>
      rw [first] at atomic
      have at_once := atomic k.server known.kept
      rw [known.left] at at_once
      have pending : Function.update (statusOf ∘ k.talk) t (.pending op) t = .pending op :=
        Function.update_self ..
      have performed := called.perform pending
      rw [at_once, Function.update_idem] at performed
      refine ⟨log ++ [⟨t, op, result⟩], ?_, known.kept, ?_, ?_⟩
      · change Explains apply o _ _ (statusOf ∘ (k.goto t (.talking op (.done result))).talk)
        rw [statusOf_goto]
        exact performed
      · rw [replay_concat, at_once]
        exact known.left
      · exact atomic_goto known.atomic nofun

theorem explained_ask {log : List (Entry Nat Op Result)}
    (keeps : ∀ s q, Inv s → Inv (serve s q).1)
    (known : Explained serve Inv object apply o k log) {op : Op} {q : Question}
    {next : Answer → Dialogue Question Answer Result}
    (here : k.talk t = .talking op (.ask q next)) :
    ∃ log', Explained serve Inv object apply o
      { k.goto t (.talking op (next (serve k.server q).2)) with
        server := (serve k.server q).1 } log' := by
  have pending : (statusOf ∘ k.talk) t = .pending op := congrArg statusOf here
  have atomic := known.atomic t op _ here rfl
  cases atomic k.server known.kept with
  | inl last =>
      obtain ⟨result, rest, effect⟩ := last
      rw [known.left] at effect
      have performed := known.seen.perform pending
      rw [effect] at performed
      refine ⟨log ++ [⟨t, op, result⟩], ?_, keeps _ q known.kept, ?_, ?_⟩
      · rw [rest]
        change Explains apply o _ _ (statusOf ∘ (k.goto t (.talking op (.done result))).talk)
        rw [statusOf_goto]
        exact performed
      · rw [replay_concat, effect]
      · rw [rest]
        exact atomic_goto known.atomic nofun
  | inr inner =>
      obtain ⟨unfinished, same, rest⟩ := inner
      refine ⟨log, ?_, keeps _ q known.kept, same.trans known.left, ?_⟩
      · change Explains apply o _ log
          (statusOf ∘ (k.goto t (.talking op (next (serve k.server q).2))).talk)
        have still : statusOf (.talking op (next (serve k.server q).2)) =
            (statusOf ∘ k.talk) t := by
          rw [pending]
          cases goes : next (serve k.server q).2 with
          | done result =>
              rw [goes] at unfinished
              cases unfinished
          | ask _ _ => rfl
        rw [statusOf_goto, still, Function.update_eq_self]
        exact known.seen
      · exact atomic_goto known.atomic fun _ => rest

theorem explained_ret {log : List (Entry Nat Op Result)}
    (known : Explained serve Inv object apply o k log) {op : Op} {result : Result}
    (here : k.talk t = .talking op (.done result)) :
    Explained serve Inv object apply o
      { k.goto t .idle with history := k.history ++ [.ret t result] } log where
  seen := by
    change Explains apply o _ log (statusOf ∘ (k.goto t .idle).talk)
    rw [statusOf_goto]
    exact known.seen.ret (congrArg statusOf here)
  kept := known.kept
  left := known.left
  atomic u op' d there := by
    replace there : Function.update k.talk t .idle u = .talking op' d := there
    by_cases mine : u = t
    · rw [mine, Function.update_self] at there
      cases there
    · rw [Function.update_of_ne mine] at there
      exact known.atomic u op' d there

theorem explained_step (keeps : ∀ s q, Inv s → Inv (serve s q).1)
    (atomic : ∀ op, (program op).Atomic serve Inv object apply op)
    (k : Sessions Server Question Answer Op Result) (a : Action Op)
    (k' : Sessions Server Question Answer Op Result)
    (known : ∃ log, Explained serve Inv object apply o k log)
    (next : step serve program k a = some k') :
    ∃ log, Explained serve Inv object apply o k' log := by
  obtain ⟨log, known⟩ := known
  cases a with
  | call t op =>
      simp only [step] at next
      cases here : k.talk t with
      | idle =>
          rw [here] at next
          exact Option.some.inj next ▸ explained_call known here (atomic op)
      | talking _ _ =>
          rw [here] at next
          cases next
  | ask t =>
      simp only [step] at next
      cases here : k.talk t with
      | idle =>
          rw [here] at next
          cases next
      | talking op d =>
          rw [here] at next
          cases d with
          | done result => cases next
          | ask q goes => exact Option.some.inj next ▸ explained_ask keeps known here
  | ret t =>
      simp only [step] at next
      cases here : k.talk t with
      | idle =>
          rw [here] at next
          cases next
      | talking op d =>
          rw [here] at next
          cases d with
          | ask q goes => cases next
          | done result => exact Option.some.inj next ▸ ⟨log, explained_ret known here⟩

/-- What a run of any clients shows is explained by the object. -/
theorem explained_run (keeps : ∀ s q, Inv s → Inv (serve s q).1)
    (atomic : ∀ op, (program op).Atomic serve Inv object apply op) {s : Server} (init : Inv s)
    {as : List (Action Op)}
    (ran : Runs.run (step serve program) { server := s } as = some k) :
    ∃ log, Explained serve Inv object apply (object s) k log := by
  have start : Explained serve Inv object apply (object s)
      ({ server := s } : Sessions Server Question Answer Op Result) [] :=
    ⟨.start, init, rfl, nofun⟩
  exact Runs.run_invariant (explained_step keeps atomic) ⟨[], start⟩ ran

/-- Sessions of atomic dialogues are linearizable: in every run of any clients. -/
theorem linearize (keeps : ∀ s q, Inv s → Inv (serve s q).1)
    (atomic : ∀ op, (program op).Atomic serve Inv object apply op) {s : Server} (init : Inv s)
    {as : List (Action Op)}
    (ran : Runs.run (step serve program) { server := s } as = some k) :
    ∃ log, Linearizes apply (object s) k.history log ∧
      object k.server = replay apply (object s) log := by
  obtain ⟨log, known⟩ := explained_run keeps atomic init ran
  exact ⟨log, known.seen.linearizes, known.left⟩

end Sessions

end Dialogues
