import LunaOS.Seatd.Client

/-!
The OPEN_DEVICE exchange, from both ends: `seatd_open_device` of the wlroots patch
writes the request and reads the reply, `handle_client_message` of the server is in
between. The field for the path holds 255 bytes and a terminator, and `strncpy` cuts
what is longer without a word. So both sides name one device exactly up to that length;
beyond it the server opens the path that is left, and the client takes it for its own.
-/
namespace LunaOS.Seatd

/-- The field `data` after `strncpy(msg.data, path, sizeof(msg.data) - 1)`, where it was
all zero before. -/
def strncpyData (path : List UInt8) : Fin 256 → UInt8 :=
  fun i => if i.val < 255 then path[i.val]?.getD 0 else 0

def openRequest (path : List UInt8) : Request :=
  { type := msgOpenDevice
    len := UInt16.ofNat (cString (strncpyData path)).length
    data := strncpyData path
    terminated := by simp [strncpyData] }

/-- What the first `recvmsg` of the client gets of the server's calls: the reply code
and the server's descriptor that was passed, if any. -/
def firstReply : List Effect → Option (Int × Option Int)
  | [] => none
  | .sendFd _ fd replyCode :: _ => some (replyCode, if fd < 0 then none else some fd)
  | .send _ reply :: _ => some (reply, none)
  | _ :: effects => firstReply effects

/-- The end of `seatd_open_device`: the descriptor of the server that the client gets a
copy of; `none` is -1. -/
def seatdOpenDevice (reply : Option (Int × Option Int)) : Option Int :=
  match reply with
  | none => none
  | some (replyCode, fd) => if replyCode ≠ 0 then none else fd

/-- The request goes out, the server acts on it, and the client reads the reply. -/
def exchange (cl : Client) (stack : Fin msgSize → UInt8) (path : List UInt8)
    (opened : Except Int Nat) : List Effect × Option Int :=
  let effects := (handleClientMessage cl stack (some (openRequest path).toBytes) opened).2
  (effects, seatdOpenDevice (firstReply effects))

def Opens (effects : List Effect) (opened : Except Int Nat) (p : List UInt8) : Prop :=
  Effect.openDevice p ∈ effects ∧ ∃ fd, opened = .ok fd

/-- Nothing but `path` is opened, and the client gets a descriptor exactly when `path`
is. -/
structure NamesOne (out : List Effect × Option Int) (opened : Except Int Nat)
    (path : List UInt8) : Prop where
  opens : ∀ p, Opens out.1 opened p → p = path
  obtains : (∃ fd, out.2 = some fd) ↔ Opens out.1 opened path

variable {path : List UInt8}

theorem ofFn_strncpyData (path : List UInt8) :
    List.ofFn (strncpyData path) =
      path.take 255 ++ List.replicate (256 - (path.take 255).length) 0 := by
  refine List.ext_getElem ?_ fun i left right => ?_
  · simp only [List.length_ofFn, List.length_append, List.length_take, List.length_replicate]
    omega
  · have inside : i < 256 := List.length_ofFn (f := strncpyData path) ▸ left
    rw [List.getElem_ofFn]
    by_cases copied : i < (path.take 255).length
    · have field : i < 255 := by
        rw [List.length_take] at copied
        omega
      have given : i < path.length := by
        rw [List.length_take] at copied
        omega
      rw [List.getElem_append_left copied]
      simp [strncpyData, field, given]
    · rw [List.getElem_append_right (Nat.not_lt.mp copied), List.getElem_replicate]
      rw [List.length_take] at copied
      simp only [strncpyData]
      split
      · have past : path.length ≤ i := by omega
        rw [List.getElem?_eq_none past, Option.getD_none]
      · rfl

/-- The server reads back what fits. -/
theorem cString_strncpyData (nul_free : 0 ∉ path) :
    cString (strncpyData path) = path.take 255 := by
  have plain : ∀ c ∈ path.take 255, decide (c ≠ 0) = true := by
    intro c mem
    refine decide_eq_true ?_
    rintro rfl
    exact nul_free (List.mem_of_mem_take mem)
  have padded : 0 < 256 - (path.take 255).length := by
    rw [List.length_take]
    omega
  rw [cString, ofFn_strncpyData, List.takeWhile_append_of_pos plain]
  cases rest : 256 - (path.take 255).length with
  | zero => omega
  | succ n => simp [List.replicate_succ]

theorem requestOf_openRequest (nul_free : 0 ∉ path) (stack : Fin msgSize → UInt8) :
    requestOf stack (some (openRequest path).toBytes) =
      some (msgOpenDevice, path.take 255) := by
  rw [Request.requestOf_toBytes, SeatdMsg.request]
  exact congrArg (fun p => some (msgOpenDevice, p)) (cString_strncpyData nul_free)

/-- The check looks at no more than the prefix. -/
theorem refused_take (path : List UInt8) : refused (path.take 255) = refused path := by
  simp [refused, strncmpEq, List.take_take]

theorem exchange_fst (nul_free : 0 ∉ path) (cl : Client) (stack : Fin msgSize → UInt8)
    (opened : Except Int Nat) :
    exchange cl stack path opened =
      ((handleOpenDevice cl (path.take 255) opened).2,
        seatdOpenDevice (firstReply (handleOpenDevice cl (path.take 255) opened).2)) := by
  have acted : handleClientMessage cl stack (some (openRequest path).toBytes) opened =
      handleOpenDevice cl (path.take 255) opened := by
    rw [handleClientMessage, requestOf_openRequest nul_free]
    exact if_pos rfl
  simp only [exchange, acted]

theorem exchange_refused (nul_free : 0 ∉ path) (blocked : refused path = true) (cl : Client)
    (stack : Fin msgSize → UInt8) (opened : Except Int Nat) :
    exchange cl stack path opened = ([.sendFd cl.fd (-1) (-eperm)], none) := by
  rw [exchange_fst nul_free]
  simp [handleOpenDevice, refused_take, blocked, firstReply, seatdOpenDevice, eperm]

theorem exchange_failed (nul_free : 0 ∉ path) (passed : refused path = false) (cl : Client)
    (stack : Fin msgSize → UInt8) (errno : Int) :
    exchange cl stack path (.error errno) =
      ([.openDevice (path.take 255), .sendFd cl.fd (-1) (-errno)], none) := by
  rw [exchange_fst nul_free]
  simp [handleOpenDevice, refused_take, passed, firstReply, seatdOpenDevice]

theorem exchange_opened (nul_free : 0 ∉ path) (passed : refused path = false) (cl : Client)
    (stack : Fin msgSize → UInt8) (fd : Nat) :
    exchange cl stack path (.ok fd) =
      ([.openDevice (path.take 255), .sendFd cl.fd fd 0, .close fd], some (fd : Int)) := by
  have named : ¬ (fd : Int) < 0 := by omega
  rw [exchange_fst nul_free]
  simp [handleOpenDevice, refused_take, passed, firstReply, seatdOpenDevice, named]

/-- For every path without a terminator in it: the exchange names one device on both
sides if and only if the path fits the field, or the server refuses it, or its `open`
fails. -/
theorem exchange_names_one_iff (nul_free : 0 ∉ path) (cl : Client)
    (stack : Fin msgSize → UInt8) (opened : Except Int Nat) :
    NamesOne (exchange cl stack path opened) opened path ↔
      path.length ≤ 255 ∨ refused path = true ∨ ∀ fd, opened ≠ .ok fd := by
  cases blocked : refused path with
  | true =>
      rw [exchange_refused nul_free blocked]
      exact iff_of_true ⟨by simp [Opens], by simp [Opens]⟩ (Or.inr (Or.inl rfl))
  | false =>
      cases opened with
      | error errno =>
          rw [exchange_failed nul_free blocked]
          exact iff_of_true ⟨by simp [Opens], by simp [Opens]⟩ (Or.inr (Or.inr (by simp)))
      | ok fd =>
          rw [exchange_opened nul_free blocked]
          constructor
          · intro one
            have same := one.opens (path.take 255) ⟨List.mem_cons_self, fd, rfl⟩
            have length := congrArg List.length same
            rw [List.length_take] at length
            exact Or.inl (by omega)
          · rintro (short | never | never)
            · rw [List.take_of_length_le short]
              exact ⟨by simp [Opens], by simp [Opens]⟩
            · cases never
            · exact absurd rfl (never fd)

/-- The card's path fits. -/
theorem exchange_names_card :
    NamesOne (exchange { fd := 3 } (fun _ => 0) (bytes "/dev/dri/card0") (.ok 7)) (.ok 7)
      (bytes "/dev/dri/card0") :=
  (exchange_names_one_iff (by decide) { fd := 3 } (fun _ => 0) (.ok 7)).mpr
    (Or.inl (by decide))

/-- A path of 256 bytes: the server opens its first 255, and the client gets that. -/
theorem exchange_opens_prefix :
    let path := bytes "/dev/dri/" ++ List.replicate 247 97
    0 ∉ path ∧
      ¬ NamesOne (exchange { fd := 3 } (fun _ => 0) path (.ok 7)) (.ok 7) path := by
  intro path
  have nul_free : 0 ∉ path := by
    intro mem
    rcases List.mem_append.mp mem with head | tail
    · exact absurd head (by decide)
    · exact absurd (List.eq_of_mem_replicate tail) (by decide)
  refine ⟨nul_free, fun one => ?_⟩
  rw [exchange_opened nul_free (by decide)] at one
  have same := one.opens (path.take 255) ⟨List.mem_cons_self, 7, rfl⟩
  have length := congrArg List.length same
  rw [List.length_take] at length
  have long : path.length = 256 := by
    rw [List.length_append, List.length_replicate]
    rfl
  omega

end LunaOS.Seatd
