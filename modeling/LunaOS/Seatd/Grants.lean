import LunaOS.Lib.Monitors
import LunaOS.Seatd.Outcomes

/-!
What `held_fds` is worth. Beside the server runs what its system calls do to the
descriptors of the devices it opens, and which devices each client has been granted and
not closed since. A descriptor is closed in the handler that records it, so no recorded
descriptor is open when the handler returns, and the record is accurate exactly as long
as nothing is granted.
-/
namespace LunaOS.Seatd
open Monitors

/-- An open device; opens are numbered in their order. -/
structure OpenFile where
  serial : Nat
  path : List UInt8
  deriving DecidableEq

/-- A device granted through a descriptor of the server. -/
structure Grant where
  fd : Int
  file : OpenFile

/-- What the server's descriptors refer to, what the client of each slot has opened and
not closed since, and what clients that are gone had opened. -/
structure Grants where
  files : Int → Option OpenFile := fun _ => none
  opens : Nat := 0
  granted : Fin maxClients → List Grant := fun _ => []
  gone : List OpenFile := []

/-- What a system call does to the device descriptors. -/
def fileTable (opens : Nat) (opened : Except Int Nat) (files : Int → Option OpenFile) :
    Effect → Int → Option OpenFile
  | .openDevice path => match opened with
      | .ok fd => Function.update files fd (some ⟨opens, path⟩)
      | .error _ => files
  | .close fd => Function.update files fd none
  | _ => files

/-- `held_fds[0..held_count)`. -/
def Client.held (cl : Client) : List Int :=
  (List.ofFn cl.heldFds).take cl.heldCount

namespace Server

/-- The device that an event opens for the client of a slot. -/
def grantOf (s : Server) : Event → Option (Fin maxClients × List UInt8 × Nat)
  | .handle k stack r (.ok fd) => match s.sources[k]?, requestOf stack r with
      | some src, some (type, path) =>
          if type = msgOpenDevice ∧ refused path = false ∧ 0 ≤ (s.clients src.slot).fd then
            some (src.slot, path, fd)
          else none
      | _, _ => none
  | _ => none

/-- A handler has run for the client of `slot`; a CLOSE_DEVICE names what it closes by
its path. -/
def noteHandled (s : Server) (slot : Fin maxClients) (stack : Fin msgSize → UInt8)
    (r : Option (List UInt8)) (opened : Except Int Nat) (g : Grants) : Grants :=
  let effects := (handleClientMessage (s.clients slot) stack r opened).2
  let g' := { g with
    files := effects.foldl (fileTable g.opens opened) g.files, opens := g.opens + 1 }
  match requestOf stack r with
  | none =>
      { g' with
        granted := Function.update g.granted slot []
        gone := (g.granted slot).map Grant.file ++ g.gone }
  | some (type, path) =>
      if type = msgCloseDevice then
        { g' with
          granted := Function.update g.granted slot
            ((g.granted slot).filter fun grant => grant.file.path ≠ path) }
      else g'

/-- A connection with descriptor `cfd` has been given the slot. -/
def noteAccepted (cfd : Int) (slot : Option (Fin maxClients)) (g : Grants) : Grants :=
  match slot with
  | some i => if cfd < 0 then g else { g with granted := Function.update g.granted i [] }
  | none => g

def noteEvent (s : Server) (e : Event) (g : Grants) : Grants :=
  match e with
  | .accept cfd _ => noteAccepted cfd s.freeSlot g
  | .handle k stack r opened =>
      s.sources[k]?.elim g fun src => s.noteHandled src.slot stack r opened g
  | .test _ => g

def noteGrants (s : Server) (e : Event) (g : Grants) : Grants :=
  let g' := s.noteEvent e g
  match s.grantOf e with
  | some (i, path, fd) =>
      { g' with
        granted := Function.update g'.granted i (⟨fd, ⟨g.opens, path⟩⟩ :: g'.granted i) }
  | none => g'

/-- The record of every client: the descriptors of what it has been granted, each of
them open and referring to its device; nothing of a client that is gone is open. -/
structure Accurate (s : Server) (g : Grants) : Prop where
  held : ∀ i, 0 ≤ (s.clients i).fd → (s.clients i).held.Perm ((g.granted i).map Grant.fd)
  refers : ∀ i, 0 ≤ (s.clients i).fd → ∀ grant ∈ g.granted i,
    g.files grant.fd = some grant.file
  gone : ∀ file ∈ g.gone, ∀ fd, g.files fd ≠ some file

variable {s s' : Server} {g : Grants}

/-! No device stays open. -/

theorem openDevice_fileTable (opens : Nat) (opened : Except Int Nat) (cl : Client)
    (path : List UInt8) :
    (handleOpenDevice cl path opened).2.foldl (fileTable opens opened) (fun _ => none) =
      fun _ => none := by
  unfold handleOpenDevice
  split
  · rfl
  · cases opened with
    | error errno => rfl
    | ok fd =>
        simp only [List.foldl_cons, List.foldl_nil, fileTable, Function.update_idem]
        exact Function.update_eq_self (fd : Int) fun _ => none

theorem handleClientMessage_fileTable (opens : Nat) (opened : Except Int Nat) (cl : Client)
    (stack : Fin msgSize → UInt8) (r : Option (List UInt8)) :
    (handleClientMessage cl stack r opened).2.foldl (fileTable opens opened) (fun _ => none) =
      fun _ => none := by
  unfold handleClientMessage
  split
  · exact Function.update_eq_self cl.fd fun _ => none
  · unfold act
    split
    · exact openDevice_fileTable opens opened cl _
    · split
      · rfl
      · split <;> rfl

structure Blank (g : Grants) : Prop where
  files : g.files = fun _ => none
  granted : ∀ i, g.granted i = []
  gone : g.gone = []

theorem blank_update {granted : Fin maxClients → List Grant} (empty : ∀ i, granted i = [])
    (slot i : Fin maxClients) : Function.update granted slot [] i = [] := by
  by_cases e : i = slot
  · subst e
    exact Function.update_self ..
  · rw [Function.update_of_ne e, empty]

theorem noteHandled_blank (h : Blank g) (slot : Fin maxClients) (stack : Fin msgSize → UInt8)
    (r : Option (List UInt8)) (opened : Except Int Nat) :
    Blank (s.noteHandled slot stack r opened g) := by
  have closed := handleClientMessage_fileTable g.opens opened (s.clients slot) stack r
  unfold noteHandled
  simp only [h.files, closed, h.granted slot, List.map_nil, List.filter_nil, h.gone,
    List.append_nil]
  split
  · exact ⟨rfl, blank_update h.granted slot, rfl⟩
  · split
    · exact ⟨rfl, blank_update h.granted slot, rfl⟩
    · exact ⟨rfl, h.granted, rfl⟩

theorem noteAccepted_blank (h : Blank g) (cfd : Int) (slot : Option (Fin maxClients)) :
    Blank (noteAccepted cfd slot g) := by
  unfold noteAccepted
  cases slot with
  | none => exact h
  | some i =>
      dsimp only
      split
      · exact h
      · exact ⟨h.files, blank_update h.granted i, h.gone⟩

theorem noteEvent_blank (h : Blank g) (e : Event) : Blank (s.noteEvent e g) := by
  cases e with
  | accept cfd pid => exact noteAccepted_blank h cfd s.freeSlot
  | handle k stack r opened =>
      change Blank (s.sources[k]?.elim g fun src => s.noteHandled src.slot stack r opened g)
      cases s.sources[k]? with
      | none => exact h
      | some src => exact noteHandled_blank h src.slot stack r opened
  | test k => exact h

/-! The record of a client. -/

/-- A handler that opens nothing leaves the record alone. -/
theorem heldCount_handleClientMessage {cl : Client} {stack : Fin msgSize → UInt8}
    {r : Option (List UInt8)} {opened : Except Int Nat}
    (none_opened : ∀ path fd, requestOf stack r = some (msgOpenDevice, path) →
      refused path = false → opened ≠ .ok fd) :
    (handleClientMessage cl stack r opened).1.heldCount = cl.heldCount := by
  unfold handleClientMessage
  cases request : requestOf stack r with
  | none => rfl
  | some acted =>
      obtain ⟨type, path⟩ := acted
      dsimp only
      unfold act
      split
      · rename_i device
        unfold handleOpenDevice
        split
        · rfl
        · rename_i passed
          cases opened with
          | error errno => rfl
          | ok fd =>
              rw [device] at request
              exact absurd rfl (none_opened path fd request (by simpa using passed))
      · split
        · rfl
        · split <;> rfl

theorem step_handle {k : Nat} {stack : Fin msgSize → UInt8} {r : Option (List UInt8)}
    {opened : Except Int Nat} (taken : s.step (.handle k stack r opened) = some s') :
    ∃ src, s.sources[k]? = some src ∧ s' = s.handle k src stack r opened := by
  simp only [step] at taken
  cases found : s.sources[k]? with
  | none => simp [found] at taken
  | some src =>
      rw [found] at taken
      obtain ⟨_, made⟩ := Option.ite_none_left_eq_some.mp taken
      exact ⟨src, rfl, (Option.some.inj made).symm⟩

/-- Nothing is recorded for a client that has opened nothing. -/
def Unrecorded (s : Server) : Prop :=
  ∀ i, 0 ≤ (s.clients i).fd → (s.clients i).heldCount = 0

theorem unrecorded_update (h : s.Unrecorded) {clients : Fin maxClients → Client}
    {i : Fin maxClients} {cl : Client} (same : clients = Function.update s.clients i cl)
    (own : 0 ≤ cl.fd → cl.heldCount = 0) (j : Fin maxClients) (seated : 0 ≤ (clients j).fd) :
    (clients j).heldCount = 0 := by
  subst same
  by_cases e : j = i
  · subst e
    rw [Function.update_self] at seated ⊢
    exact own seated
  · rw [Function.update_of_ne e] at seated ⊢
    exact h j seated

theorem grantOf_handle {k : Nat} {src : Source} {stack : Fin msgSize → UInt8}
    {r : Option (List UInt8)} {path : List UInt8} {fd : Nat}
    (found : s.sources[k]? = some src) (seated : 0 ≤ (s.clients src.slot).fd)
    (request : requestOf stack r = some (msgOpenDevice, path)) (passed : refused path = false) :
    s.grantOf (.handle k stack r (.ok fd)) = some (src.slot, path, fd) := by
  simp [grantOf, found, request, passed, seated]

theorem handle_fd {cl : Client} {stack : Fin msgSize → UInt8} {r : Option (List UInt8)}
    {opened : Except Int Nat} (seated : 0 ≤ (handleClientMessage cl stack r opened).1.fd) :
    0 ≤ cl.fd := by
  unfold handleClientMessage at seated
  cases request : requestOf stack r with
  | none =>
      rw [request] at seated
      exact absurd seated (by simp [disconnect])
  | some acted =>
      rw [request] at seated
      exact (act_connection cl acted.1 acted.2 opened).1 ▸ seated

theorem unrecorded_step (h : s.Unrecorded) {e : Event} (ungranted : s.grantOf e = none)
    (taken : s.step e = some s') : s'.Unrecorded := by
  cases e with
  | accept cfd pid =>
      cases step_change taken with
      | failed _ => exact h
      | refused _ => exact h
      | admitted i free good unused => exact unrecorded_update h rfl fun _ => rfl
  | handle k stack r opened =>
      obtain ⟨src, found, rfl⟩ := step_handle taken
      refine unrecorded_update h rfl fun seated => ?_
      have before := handle_fd seated
      rw [heldCount_handleClientMessage]
      · exact h src.slot before
      · rintro path fd request passed rfl
        rw [grantOf_handle found before request passed] at ungranted
        cases ungranted
  | test k =>
      cases step_change taken with
      | tested src found busy => exact h

theorem accurate_of_blank (h : s.Unrecorded) (blank : Blank g) : s.Accurate g where
  held := by
    intro i seated
    rw [Client.held, h i seated, blank.granted i]
    exact List.Perm.refl _
  refers := by
    intro i _ grant mem
    rw [blank.granted i] at mem
    cases mem
  gone := by
    intro file mem
    rw [blank.gone] at mem
    cases mem

/-- A grant goes to a client that is still there when the handler returns. -/
theorem grantOf_seated {e : Event} {i : Fin maxClients} {path : List UInt8} {fd : Nat}
    (granted : s.grantOf e = some (i, path, fd)) (taken : s.step e = some s') :
    0 ≤ (s'.clients i).fd := by
  cases e with
  | accept cfd pid => cases granted
  | test k => cases granted
  | handle k stack r opened =>
      obtain ⟨src, found, rfl⟩ := step_handle taken
      cases opened with
      | error errno => cases granted
      | ok fd' =>
          cases request : requestOf stack r with
          | none => simp [grantOf, found, request] at granted
          | some acted =>
              obtain ⟨type, path'⟩ := acted
              simp only [grantOf, found, request] at granted
              obtain ⟨⟨_, _, seated⟩, made⟩ := Option.ite_none_right_eq_some.mp granted
              obtain ⟨rfl, _, _⟩ : src.slot = i ∧ path' = path ∧ fd' = fd := by
                simpa using made
              have same := (act_connection (s.clients src.slot) type path' (.ok fd')).1
              simp only [handle, handleClientMessage, request, Function.update_self, same]
              exact seated

/-- The device of a grant is closed when the record of it is read. -/
theorem not_accurate_of_grant (blank : Blank g) {e : Event} {i : Fin maxClients}
    {path : List UInt8} {fd : Nat} (granted : s.grantOf e = some (i, path, fd))
    (taken : s.step e = some s') : ¬ s'.Accurate (s.noteGrants e g) := by
  intro accurate
  have closed : (s.noteEvent e g).files = fun _ => none := (noteEvent_blank blank e).files
  have recorded : (⟨fd, ⟨g.opens, path⟩⟩ : Grant) ∈ (s.noteGrants e g).granted i := by
    simp only [noteGrants, granted, Function.update_self]
    exact List.mem_cons_self
  have open_still : (s.noteGrants e g).files fd = some ⟨g.opens, path⟩ :=
    accurate.refers i (grantOf_seated granted taken) _ recorded
  have files : (s.noteGrants e g).files = (s.noteEvent e g).files := by
    simp only [noteGrants, granted]
  rw [files, closed] at open_still
  cases open_still

theorem step_accurate_iff (h : s.Unrecorded) (blank : Blank g) {e : Event}
    (taken : s.step e = some s') : s'.Accurate (s.noteGrants e g) ↔ s.grantOf e = none := by
  cases granted : s.grantOf e with
  | none =>
      have same : s.noteGrants e g = s.noteEvent e g := by
        rw [noteGrants, granted]
      rw [same]
      exact iff_of_true
        (accurate_of_blank (unrecorded_step h granted taken) (noteEvent_blank blank e)) rfl
  | some grant =>
      refine iff_of_false (not_accurate_of_grant blank granted taken) ?_
      exact Option.some_ne_none grant

/-- In every run of the server the record of every client is accurate in every state if
and only if no OPEN_DEVICE of the run is granted. -/
theorem held_fds_accurate_iff (events : List Event) :
    (∀ s g, Runs.Visits (watch step noteGrants) (start, {}) events (s, g) → s.Accurate g) ↔
      ∀ s g e, Runs.Takes (watch step noteGrants) (start, {}) events (s, g) e →
        s.grantOf e = none := by
  have blank : Blank {} := ⟨rfl, fun _ => rfl, rfl⟩
  have fresh : start.Unrecorded := fun _ _ => rfl
  refine Monitors.visits_iff_takes (fun s g => s.Unrecorded ∧ Blank g) Accurate
    (fun s _ e => s.grantOf e = none) ?_ ?_ ⟨fresh, blank⟩ (accurate_of_blank fresh blank) events
  · rintro s g e s' ⟨h, blank⟩ _ ungranted taken
    have same : s.noteGrants e g = s.noteEvent e g := by
      rw [noteGrants, ungranted]
    exact ⟨unrecorded_step h ungranted taken, same ▸ noteEvent_blank blank e⟩
  · rintro s g e s' ⟨h, blank⟩ _ taken
    exact step_accurate_iff h blank taken

/-- A client is admitted and opens the card: the recorded descriptor is closed. -/
theorem granted_descriptor_closed :
    ∃ s g, Runs.Visits (watch step noteGrants) (start, {})
      [.accept 5 1, .handle 0 (fun _ => 0)
        (some ([1, 0, 14, 0] ++ bytes "/dev/dri/card0" ++ List.replicate 242 0)) (.ok 6)] (s, g) ∧
      ¬ s.Accurate g := by
  let events : List Event :=
    [.accept 5 1, .handle 0 (fun _ => 0)
      (some ([1, 0, 14, 0] ++ bytes "/dev/dri/card0" ++ List.replicate 242 0)) (.ok 6)]
  have ends : (Runs.run (watch step noteGrants) (start, {}) events).any (fun w =>
      0 ≤ (w.1.clients 0).fd && (w.2.granted 0).any fun grant => w.2.files grant.fd = none) =
        true := by decide +kernel
  obtain ⟨⟨s, g⟩, reached, wrong⟩ := (Option.any_eq_true _ _).mp ends
  obtain ⟨seated, granted⟩ := Bool.and_eq_true_iff.mp wrong
  obtain ⟨grant, mem, closed⟩ := List.any_eq_true.mp granted
  refine ⟨s, g, Runs.visits_of_run reached, fun accurate => ?_⟩
  have refers := accurate.refers 0 (of_decide_eq_true seated) grant mem
  rw [of_decide_eq_true closed] at refers
  cases refers

end Server
end LunaOS.Seatd
