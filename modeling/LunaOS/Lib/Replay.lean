/-!
A reader that sees only a log. A producer appends records to its log as its state
changes; a reader folds the whole log into a state of its own. The two agree as
long as they agree over the records of each step, wherever they stood before it.
-/
namespace Replay

universe u v w
variable {State : Type u} {Record : Type v} {Reader : Type w}

/-- The reader, started in `init`, agrees with the state that has written the log. -/
def Follows (agrees : State → Reader → Prop) (log : State → List Record)
    (read : Reader → Record → Reader) (init : Reader) (s : State) : Prop :=
  agrees s ((log s).foldl read init)

/-- Whatever agrees with `s` agrees with `s'` once it has read `out`. -/
def Carries (agrees : State → Reader → Prop) (read : Reader → Record → Reader)
    (s s' : State) (out : List Record) : Prop :=
  ∀ r, agrees s r → agrees s' (out.foldl read r)

variable {agrees : State → Reader → Prop} {log : State → List Record}
  {read : Reader → Record → Reader} {init : Reader} {s s' s'' : State}

theorem Carries.trans {out out' : List Record} (h : Carries agrees read s s' out)
    (h' : Carries agrees read s' s'' out') : Carries agrees read s s'' (out ++ out') := by
  intro r before
  rw [List.foldl_append]
  exact h' _ (h r before)

theorem Follows.extend (h : Follows agrees log read init s) {out : List Record}
    (grown : log s' = log s ++ out) (carries : Carries agrees read s s' out) :
    Follows agrees log read init s' := by
  unfold Follows
  rw [grown, List.foldl_append]
  exact carries _ h

end Replay
