import Mathlib.Data.List.Infix
import Mathlib.Logic.Function.Basic

/-!
Linearizability of an object that many threads use at once. `apply` is the object's
sequential meaning, a history what the threads see of a run: their calls and the
replies, in the order of time. A linearization is a log of operations that take effect
one after the other, each between its call and its reply. An implementation has one if
every step of it lets at most one operation that was called take effect, and if a
reply is that of the operation's turn: such a history is explained by the object
itself, which performs one pending operation at a time.
-/
namespace Linearize

variable {Thread Op Reply State : Type}

inductive Event (Thread Op Reply : Type) where
  | call (t : Thread) (op : Op)
  | ret (t : Thread) (reply : Reply)

structure Entry (Thread Op Reply : Type) where
  thread : Thread
  op : Op
  reply : Reply

/-- The state after the operations of a log, one after the other. -/
def replay (apply : State → Op → State × Reply) (s : State)
    (log : List (Entry Thread Op Reply)) : State :=
  log.foldl (fun s e => (apply s e.op).1) s

/-- Each reply of a log is the one that the object gives in its turn. -/
def Legal (apply : State → Op → State × Reply) : State → List (Entry Thread Op Reply) → Prop
  | _, [] => True
  | s, e :: log => e.reply = (apply s e.op).2 ∧ Legal apply (apply s e.op).1 log

theorem replay_concat (apply : State → Op → State × Reply) (s : State)
    (log : List (Entry Thread Op Reply)) (e : Entry Thread Op Reply) :
    replay apply s (log ++ [e]) = (apply (replay apply s log) e.op).1 := by
  simp only [replay, List.foldl_append, List.foldl_cons, List.foldl_nil]

theorem legal_concat {apply : State → Op → State × Reply} {s : State}
    {log : List (Entry Thread Op Reply)} {e : Entry Thread Op Reply}
    (legal : Legal apply s log) (turn : e.reply = (apply (replay apply s log) e.op).2) :
    Legal apply s (log ++ [e]) := by
  induction log generalizing s with
  | nil => exact ⟨turn, trivial⟩
  | cons first log ih => exact ⟨legal.1, ih legal.2 turn⟩

section
variable [DecidableEq Thread]

def called (t : Thread) (h : List (Event Thread Op Reply)) : List Op :=
  h.filterMap fun
    | .call u op => if u = t then some op else none
    | .ret _ _ => none

def returned (t : Thread) (h : List (Event Thread Op Reply)) : List Reply :=
  h.filterMap fun
    | .call _ _ => none
    | .ret u reply => if u = t then some reply else none

def opsOf (t : Thread) (log : List (Entry Thread Op Reply)) : List Op :=
  (log.filter (·.thread = t)).map (·.op)

def repliesOf (t : Thread) (log : List (Entry Thread Op Reply)) : List Reply :=
  (log.filter (·.thread = t)).map (·.reply)

/-- A log lists only what was called, and at least what has returned. -/
structure Covers (h : List (Event Thread Op Reply)) (log : List (Entry Thread Op Reply)) :
    Prop where
  called : ∀ t, opsOf t log <+: called t h
  returned : ∀ t, returned t h <+: repliesOf t log

/-- At every moment of the history some beginning of the log covers it. So what has
returned by then stands in the log before what is called later. -/
structure Linearizes (apply : State → Op → State × Reply) (s : State)
    (h : List (Event Thread Op Reply)) (log : List (Entry Thread Op Reply)) : Prop where
  legal : Legal apply s log
  covers : Covers h log
  timely : ∀ before, before <+: h → ∃ done, done <+: log ∧ Covers before done

/-- How far the object is with a thread. -/
inductive Status (Op Reply : Type) where
  | idle
  | pending (op : Op)
  | answered (reply : Reply)

/-- The object has the history `h` after it performed the operations of `log`. -/
inductive Explains (apply : State → Op → State × Reply) (s : State) :
    List (Event Thread Op Reply) → List (Entry Thread Op Reply) →
      (Thread → Status Op Reply) → Prop
  | start : Explains apply s [] [] fun _ => .idle
  | call {h log status} (t : Thread) (op : Op) (seen : Explains apply s h log status)
      (idle : status t = .idle) :
      Explains apply s (h ++ [.call t op]) log (Function.update status t (.pending op))
  | perform {h log status} {t : Thread} {op : Op} (seen : Explains apply s h log status)
      (waits : status t = .pending op) :
      Explains apply s h (log ++ [⟨t, op, (apply (replay apply s log) op).2⟩])
        (Function.update status t (.answered (apply (replay apply s log) op).2))
  | ret {h log status} {t : Thread} {reply : Reply} (seen : Explains apply s h log status)
      (answered : status t = .answered reply) :
      Explains apply s (h ++ [.ret t reply]) log (Function.update status t .idle)

/-- What the history and the log have of a thread, by its status. -/
def Accounted (h : List (Event Thread Op Reply)) (log : List (Entry Thread Op Reply))
    (t : Thread) : Status Op Reply → Prop
  | .idle => called t h = opsOf t log ∧ repliesOf t log = returned t h
  | .pending op => called t h = opsOf t log ++ [op] ∧ repliesOf t log = returned t h
  | .answered reply =>
      called t h = opsOf t log ∧ repliesOf t log = returned t h ++ [reply]

variable {apply : State → Op → State × Reply} {s : State}
  {h : List (Event Thread Op Reply)} {log : List (Entry Thread Op Reply)}
  {status : Thread → Status Op Reply}

theorem accounted_called {t : Thread} {st : Status Op Reply} (acc : Accounted h log t st) :
    opsOf t log <+: called t h := by
  cases st with
  | idle => exact acc.1 ▸ List.prefix_rfl
  | pending op => exact acc.1 ▸ List.prefix_append _ _
  | answered reply => exact acc.1 ▸ List.prefix_rfl

theorem accounted_returned {t : Thread} {st : Status Op Reply} (acc : Accounted h log t st) :
    returned t h <+: repliesOf t log := by
  cases st with
  | idle => exact acc.2 ▸ List.prefix_rfl
  | pending op => exact acc.2 ▸ List.prefix_rfl
  | answered reply => exact acc.2 ▸ List.prefix_append _ _

/-- An event or an entry of another thread changes nothing for this one. -/
theorem accounted_congr {h' : List (Event Thread Op Reply)}
    {log' : List (Entry Thread Op Reply)} {t : Thread} {st : Status Op Reply}
    (calls : called t h' = called t h) (rets : returned t h' = returned t h)
    (ops : opsOf t log' = opsOf t log) (replies : repliesOf t log' = repliesOf t log) :
    Accounted h' log' t st ↔ Accounted h log t st := by
  cases st <;> simp only [Accounted, calls, rets, ops, replies]

theorem called_concat (t : Thread) (h : List (Event Thread Op Reply))
    (e : Event Thread Op Reply) : called t (h ++ [e]) = called t h ++ called t [e] :=
  List.filterMap_append

theorem returned_concat (t : Thread) (h : List (Event Thread Op Reply))
    (e : Event Thread Op Reply) : returned t (h ++ [e]) = returned t h ++ returned t [e] :=
  List.filterMap_append

theorem opsOf_concat (t : Thread) (log : List (Entry Thread Op Reply))
    (e : Entry Thread Op Reply) : opsOf t (log ++ [e]) = opsOf t log ++ opsOf t [e] := by
  simp only [opsOf, List.filter_append, List.map_append]

theorem repliesOf_concat (t : Thread) (log : List (Entry Thread Op Reply))
    (e : Entry Thread Op Reply) :
    repliesOf t (log ++ [e]) = repliesOf t log ++ repliesOf t [e] := by
  simp only [repliesOf, List.filter_append, List.map_append]

/-- Every thread is accounted for in a history that the object explains. -/
theorem Explains.accounted (seen : Explains apply s h log status) (t : Thread) :
    Accounted h log t (status t) := by
  induction seen with
  | start => exact ⟨rfl, rfl⟩
  | call u op _ idle ih =>
      by_cases mine : t = u
      · subst mine
        rw [idle] at ih
        rw [Function.update_self]
        refine ⟨?_, ?_⟩
        · rw [called_concat, ih.1]
          simp [called]
        · rw [returned_concat, ih.2]
          simp [returned]
      · have other : u ≠ t := fun same => mine same.symm
        rw [Function.update_of_ne mine]
        refine (accounted_congr ?_ ?_ rfl rfl).mpr ih
        · rw [called_concat]
          simp [called, other]
        · rw [returned_concat]
          simp [returned]
  | @perform _ _ _ u op _ waits ih =>
      by_cases mine : t = u
      · subst mine
        rw [waits] at ih
        rw [Function.update_self]
        refine ⟨?_, ?_⟩
        · rw [opsOf_concat, ih.1]
          simp [opsOf]
        · rw [repliesOf_concat, ih.2]
          simp [repliesOf]
      · have other : u ≠ t := fun same => mine same.symm
        rw [Function.update_of_ne mine]
        refine (accounted_congr rfl rfl ?_ ?_).mpr ih
        · rw [opsOf_concat]
          simp [opsOf, other]
        · rw [repliesOf_concat]
          simp [repliesOf, other]
  | @ret _ _ _ u reply _ answered ih =>
      by_cases mine : t = u
      · subst mine
        rw [answered] at ih
        rw [Function.update_self]
        refine ⟨?_, ?_⟩
        · rw [called_concat, ih.1]
          simp [called]
        · rw [returned_concat, ih.2]
          simp [returned]
      · have other : u ≠ t := fun same => mine same.symm
        rw [Function.update_of_ne mine]
        refine (accounted_congr ?_ ?_ rfl rfl).mpr ih
        · rw [called_concat]
          simp [called]
        · rw [returned_concat]
          simp [returned, other]

theorem Explains.covers (seen : Explains apply s h log status) : Covers h log where
  called t := accounted_called (seen.accounted t)
  returned t := accounted_returned (seen.accounted t)

/-- One more event: the beginnings of the history are the old ones and the whole. -/
theorem timely_concat {e : Event Thread Op Reply}
    (timely : ∀ before, before <+: h → ∃ done, done <+: log ∧ Covers before done)
    (covers : Covers (h ++ [e]) log) (before : List (Event Thread Op Reply))
    (early : before <+: h ++ [e]) : ∃ done, done <+: log ∧ Covers before done := by
  rcases List.prefix_concat_iff.mp early with rfl | early
  · exact ⟨log, List.prefix_rfl, covers⟩
  · exact timely before early

/-- A history that the object explains is linearized by the log of its operations. -/
theorem Explains.linearizes (seen : Explains apply s h log status) :
    Linearizes apply s h log := by
  refine ⟨?_, seen.covers, ?_⟩
  · induction seen with
    | start => exact trivial
    | call _ _ _ _ ih => exact ih
    | perform _ _ ih => exact legal_concat ih rfl
    | ret _ _ ih => exact ih
  · induction seen with
    | start =>
        intro before early
        obtain rfl := List.prefix_nil.mp early
        have begins : Explains apply s [] [] fun _ : Thread => .idle := .start
        exact ⟨[], List.prefix_rfl, begins.covers⟩
    | call t op seen idle ih => exact timely_concat ih (Explains.call t op seen idle).covers
    | perform _ _ ih =>
        intro before early
        obtain ⟨done, part, covers⟩ := ih before early
        exact ⟨done, part.trans (List.prefix_append _ _), covers⟩
    | ret seen answered ih => exact timely_concat ih (Explains.ret seen answered).covers

end

end Linearize
