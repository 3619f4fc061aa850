import Orcashi.DaemonCommand
import Orcashi.Lib.StringCopy

/-!
# The arrays a command is taken apart in

`daemon_handle_command` copies a command into `cmd_copy`, and the functions of the commands copy an id into
`peer_id` and a text into `message`.  Four of the six that take an id copy as much of it as `peer_id` has
room for.  `chat_send` and `ghost` copy all of it, up to the blank behind it.
-/

namespace Orcashi

open CMemory

/-! ## The arrays -/

/-- The arrays, with what was on the stack before. -/
structure CommandStack where
  cmdCopy : Bytes
  peerId : Bytes
  message : Bytes
  cmdCopySize : cmdCopy.length = 512
  peerIdSize : peerId.length = idSize
  messageSize : message.length = 4096

/-- A command that was taken apart: its name, its arguments, and what is in `peer_id` and `message` if
something is copied there. -/
structure ParsedCommand where
  name : CString
  args : Option CString
  peerId : Option CString
  message : Option CString

namespace CommandStack

variable (stack : CommandStack)

/-- `cmd_copy`, and where `args` points to; none where a store is outside. -/
def copyCommand (cmd : CString) : Option (Bytes × Option ℕ) := do
  let cmdCopy ← strncpyTerminated stack.cmdCopy cmd (512 - 1)
  match strchr cmdCopy 0 32 with
  | none => return (cmdCopy, none)
  | some args =>
    let cmdCopy ← storeByte cmdCopy args 0
    return (cmdCopy, some (args + 1))

/-- `peer_id` in `daemon_cmd_search`, `daemon_cmd_add`, `daemon_cmd_accept` and `daemon_cmd_reject`. -/
def copyPeerId (cmdCopy : Bytes) (args : ℕ) : Option CString := do
  let peerId ← strncpyTerminated stack.peerId (strAt cmdCopy args) (idSize - 1)
  return strAt peerId 0

/-- `peer_id` and `message` in `daemon_cmd_chat_send` and `daemon_cmd_ghost`; nothing is copied if there
is no second blank. -/
def copyPeerIdAndMessage (cmdCopy : Bytes) (args : ℕ) : Option (Option (CString × CString)) :=
  match strchr cmdCopy args 32 with
  | none => some none
  | some msgStart => do
    let idLen := msgStart - args
    let peerId ← strncpyTerminated stack.peerId (strAt cmdCopy args) idLen
    let message ← strcpy stack.message (strAt cmdCopy (msgStart + 1))
    return some (strAt peerId 0, strAt message 0)

/-- What is copied for a command; `dht` says that the daemon is listening. -/
def copyArgs (dht : Bool) (name : CommandName) (cmdCopy : Bytes) (args : ℕ) :
    Option (Option CString × Option CString) :=
  match name with
  | .search => if dht then (stack.copyPeerId cmdCopy args).map fun id => (some id, none) else some (none, none)
  | .add | .accept | .reject => (stack.copyPeerId cmdCopy args).map fun id => (some id, none)
  | .chatSend | .ghost =>
    (stack.copyPeerIdAndMessage cmdCopy args).map fun copied => (copied.map Prod.fst, copied.map Prod.snd)
  | .identity | .listen | .peers | .status | .stop => some (none, none)

/-- A command taken apart; none where something is written outside an array. -/
def parseCommand (dht : Bool) (cmd : CString) : Option ParsedCommand := do
  let (cmdCopy, args) ← stack.copyCommand cmd
  let name := strAt cmdCopy 0
  match CommandName.ofText name, args with
  | some command, some args =>
    let (peerId, message) ← stack.copyArgs dht command cmdCopy args
    return ⟨name, some (strAt cmdCopy args), peerId, message⟩
  | _, _ => return ⟨name, args.map (strAt cmdCopy), none, none⟩

end CommandStack

/-- The id that is given to a command: all its arguments, or those in front of the second blank. -/
def givenId (name : CString) (args : Option CString) : Option CString :=
  match CommandName.ofText name with
  | some .search | some .add | some .accept | some .reject => args
  | some .chatSend | some .ghost => (args.bind splitArgs).map Prod.fst
  | _ => none

/-- Everything is written inside the arrays, and an id is cut to 63 characters. -/
def ParsesWell (stack : CommandStack) (dht : Bool) (cmd : CString) : Prop :=
  ∃ p, stack.parseCommand dht cmd = some p ∧
    ∀ id, p.peerId = some id → ∃ given, givenId p.name p.args = some given ∧ id = given.take 63

/-- The command, in the 511 characters that are kept of it, is `chat_send` or `ghost` with a text behind an
id of more than 63 characters. -/
def TextForLongId (cmd : CString) : Prop :=
  ∃ name id text, (name = .chatSend ∨ name = .ghost) ∧ 32 ∉ id ∧ 63 < id.length ∧
    cmd.take 511 = CommandName.text name ++ 32 :: (id ++ 32 :: text)

/-! ## What the arrays hold -/

theorem splitArgs_cases (s : CString) : (32 ∉ s ∧ splitArgs s = none) ∨
    ∃ a b, s = a ++ 32 :: b ∧ 32 ∉ a ∧ splitArgs s = some (a, b) := by
  by_cases blank : 32 ∈ s
  · obtain ⟨a, b, rfl, first⟩ := List.eq_append_cons_of_mem blank
    exact Or.inr ⟨a, b, rfl, first, splitArgs_append first⟩
  · exact Or.inl ⟨blank, if_neg blank⟩

section Copies

variable (stack : CommandStack) {cmd name args : CString} {A R : Bytes}

/-- `cmd_copy` holds the name and the arguments, each with a NUL behind it. -/
theorem copyCommand_eq (h : 0 ∉ cmd) :
    (∃ R, splitCommand cmd = (commandCopy cmd, none) ∧
      stack.copyCommand cmd = some (commandCopy cmd ++ 0 :: R, none)) ∨
    ∃ name args R, commandCopy cmd = name ++ 32 :: args ∧ 32 ∉ name ∧
      splitCommand cmd = (name, some args) ∧
      stack.copyCommand cmd = some (name ++ 0 :: (args ++ 0 :: R), some (name.length + 1)) := by
  have size := stack.cmdCopySize
  obtain ⟨R, copied, -⟩ := strncpyTerminated_eq (show 512 - 1 < stack.cmdCopy.length by omega) cmd
  change strncpyTerminated stack.cmdCopy cmd (512 - 1) = some (commandCopy cmd ++ 0 :: R) at copied
  have clean : 0 ∉ commandCopy cmd := fun mem => h (List.mem_of_mem_take mem)
  unfold splitCommand CommandStack.copyCommand
  rw [copied, Option.bind_eq_bind, Option.bind_some]
  rcases splitArgs_cases (commandCopy cmd) with ⟨noBlank, none_⟩ | ⟨name, args, split, first, some_⟩
  · rw [none_, strchr_not_found noBlank (by decide)]
    exact Or.inl ⟨R, rfl, rfl⟩
  · rw [some_]
    rw [split] at clean ⊢
    rw [List.mem_append, not_or] at clean
    have mem : name ++ 32 :: args ++ 0 :: R = name ++ 32 :: (args ++ 0 :: R) := List.append_assoc _ _ _
    rw [mem, strchr_found clean.1 first]
    refine Or.inr ⟨name, args, R, rfl, first, rfl, ?_⟩
    dsimp only
    unfold storeByte
    rw [if_pos, List.set_append_right _ _ (Nat.le_refl _), Nat.sub_self, List.set_cons_zero]
    · rfl
    · rw [List.length_append, List.length_cons]
      omega

/-- The first 63 characters. -/
theorem copyPeerId_eq (h : 0 ∉ args) (at_ : n = A.length) :
    stack.copyPeerId (A ++ (args ++ 0 :: R)) n = some (peerIdArg args) := by
  have size := stack.peerIdSize
  subst at_
  obtain ⟨R', copied, -⟩ := strncpyTerminated_eq
    (show idSize - 1 < stack.peerId.length by rw [size]; decide) args
  unfold CommandStack.copyPeerId
  rw [strAt_behind, strAt_zero h, copied, Option.bind_eq_bind, Option.bind_some,
    strAt_zero fun mem => h (List.mem_of_mem_take mem)]
  rfl

/-- All that is in front of the blank, and what is behind it. -/
theorem copyPeerIdAndMessage_eq (h : 0 ∉ args) (short : args.length < 4096) (at_ : n = A.length) :
    stack.copyPeerIdAndMessage (A ++ (args ++ 0 :: R)) n =
      if idFits (some args) then some (splitArgs args) else none := by
  subst at_
  unfold CommandStack.copyPeerIdAndMessage idFits
  rw [Option.bind_some, strchr_behind]
  rcases splitArgs_cases args with ⟨noBlank, none_⟩ | ⟨id, text, rfl, first, some_⟩
  · rw [none_, strchr_not_found noBlank (by decide)]
    rfl
  · rw [List.mem_append, not_or] at h
    have cleanText : 0 ∉ text := fun mem => h.2 (List.mem_cons_of_mem _ mem)
    have mem : id ++ 32 :: text ++ 0 :: R = id ++ 32 :: (text ++ 0 :: R) := List.append_assoc _ _ _
    have behind : A ++ (id ++ 32 :: (text ++ 0 :: R)) = (A ++ id ++ [32]) ++ (text ++ 0 :: R) := by
      rw [List.append_assoc, List.append_assoc]
      rfl
    have start : A.length + id.length + 1 = (A ++ id ++ [32]).length := by
      rw [List.length_append, List.length_append, List.length_singleton]
    have given : strAt (A ++ (id ++ 32 :: (text ++ 0 :: R))) A.length = id ++ 32 :: text := by
      rw [← mem, strAt_behind, strAt_zero]
      rw [List.mem_append, not_or]
      exact h
    rw [some_, mem, strchr_found h.1 first, Option.map_some, Option.all_some]
    dsimp only
    rw [given, start, behind, strAt_behind, strAt_zero cleanText, Nat.add_sub_cancel_left]
    have size := stack.peerIdSize
    by_cases fits : id.length < idSize
    · obtain ⟨R', copied, -⟩ := strncpyTerminated_eq
        (show id.length < stack.peerId.length by rw [size]; exact fits) (id ++ 32 :: text)
      rw [List.take_left] at copied
      have length : text.length < stack.message.length := by
        rw [stack.messageSize]
        rw [List.length_append, List.length_cons] at short
        omega
      rw [copied, strcpy_eq length, if_pos (decide_eq_true fits), Option.bind_eq_bind, Option.bind_some,
        Option.bind_some, strAt_zero h.1, strAt_zero cleanText]
      rfl
    · rw [strncpyTerminated_eq_none (by rw [size]; exact Nat.not_lt.1 fits),
        if_neg (by rw [decide_eq_true_eq]; exact fits)]
      rfl

end Copies

/-! ## Which commands are taken apart well -/

/-- What taking a command apart comes to, given its name and arguments. -/
def takenApart (dht : Bool) (name : CString) (args : Option CString) : Option ParsedCommand :=
  match CommandName.ofText name with
  | some .search => some ⟨name, args, if dht then args.map peerIdArg else none, none⟩
  | some .add | some .accept | some .reject => some ⟨name, args, args.map peerIdArg, none⟩
  | some .chatSend | some .ghost =>
    if idFits args then
      some ⟨name, args, (args.bind splitArgs).map Prod.fst, (args.bind splitArgs).map Prod.snd⟩
    else none
  | _ => some ⟨name, args, none, none⟩

theorem takenApart_none (dht : Bool) (name : CString) :
    takenApart dht name none = some ⟨name, none, none, none⟩ := by
  unfold takenApart
  split
  · cases dht <;> rfl
  all_goals rfl

/-- The arrays hold what `splitCommand` and the functions of the commands work on. -/
theorem parseCommand_eq (stack : CommandStack) (dht : Bool) {cmd : CString} (h : 0 ∉ cmd) :
    stack.parseCommand dht cmd = takenApart dht (splitCommand cmd).1 (splitCommand cmd).2 := by
  have clean : 0 ∉ commandCopy cmd := fun mem => h (List.mem_of_mem_take mem)
  unfold CommandStack.parseCommand
  rcases copyCommand_eq stack h with ⟨R, split, copied⟩ | ⟨name, args, R, whole, -, split, copied⟩
  · rw [copied, split, takenApart_none, Option.bind_eq_bind, Option.bind_some]
    dsimp only
    rw [strAt_zero clean]
    cases CommandName.ofText (commandCopy cmd) <;> rfl
  · have short : args.length < 4096 := by
      have length := congrArg List.length whole
      have cut : (commandCopy cmd).length ≤ 511 := List.length_take_le _ _
      rw [List.length_append, List.length_cons] at length
      omega
    rw [whole, List.mem_append, not_or] at clean
    have cleanArgs : 0 ∉ args := fun mem => clean.2 (List.mem_cons_of_mem _ mem)
    have behind : name ++ 0 :: (args ++ 0 :: R) = (name ++ [0]) ++ (args ++ 0 :: R) := by
      rw [List.append_assoc]
      rfl
    have start : name.length + 1 = (name ++ [0]).length := by rw [List.length_append, List.length_singleton]
    have arguments : strAt (name ++ 0 :: (args ++ 0 :: R)) (name.length + 1) = args := by
      rw [behind, start, strAt_behind, strAt_zero cleanArgs]
    rw [copied, split, Option.bind_eq_bind, Option.bind_some]
    dsimp only
    rw [strAt_zero clean.1]
    have id := copyPeerId_eq stack (A := name ++ [0]) (R := R) cleanArgs start
    have both := copyPeerIdAndMessage_eq stack (A := name ++ [0]) (R := R) cleanArgs short start
    rw [← behind] at id both
    unfold takenApart CommandStack.copyArgs
    cases CommandName.ofText name with
    | none =>
      dsimp only
      rw [Option.map_some, arguments]
      rfl
    | some command =>
      dsimp only
      rw [id, both, arguments]
      cases command with
      | search => cases dht <;> rfl
      | chatSend => cases idFits (some args) <;> rfl
      | ghost => cases idFits (some args) <;> rfl
      | _ => rfl

theorem eq_text_of_ofText {s : CString} {name : CommandName} (h : CommandName.ofText s = some name) :
    s = name.text := by
  have found := List.find?_some h
  exact (beq_iff_eq.1 found).symm

/-- What is taken apart has its id cut. -/
theorem cut_of_takenApart {dht : Bool} {name : CString} {args : Option CString} {p : ParsedCommand}
    (h : takenApart dht name args = some p) {id : CString} (taken : p.peerId = some id) :
    ∃ given, givenId p.name p.args = some given ∧ id = given.take 63 := by
  have whole {id : CString} (taken : args.map peerIdArg = some id) :
      ∃ given, args = some given ∧ id = given.take 63 := by
    obtain ⟨given, rfl, rfl⟩ := Option.map_eq_some_iff.1 taken
    exact ⟨given, rfl, rfl⟩
  have front {id : CString} (fits : idFits args = true)
      (taken : (args.bind splitArgs).map Prod.fst = some id) :
      ∃ given, (args.bind splitArgs).map Prod.fst = some given ∧ id = given.take 63 := by
    refine ⟨id, taken, (List.take_of_length_le ?_).symm⟩
    obtain ⟨⟨_, text⟩, split, rfl⟩ := Option.map_eq_some_iff.1 taken
    unfold idFits at fits
    rw [split] at fits
    exact Nat.le_of_lt_succ (of_decide_eq_true fits)
  unfold takenApart at h
  unfold givenId
  cases command : CommandName.ofText name with
  | none =>
    rw [command] at h
    cases h
    cases taken
  | some c =>
    rw [command] at h
    cases c with
    | search =>
      cases h
      cases dht with
      | false => cases taken
      | true =>
        rw [command]
        exact whole taken
    | add | accept | reject =>
      cases h
      rw [command]
      exact whole taken
    | chatSend | ghost =>
      dsimp only at h
      split_ifs at h with fits
      cases h
      rw [command]
      exact front fits taken
    | _ =>
      cases h
      cases taken

/-- The commands that are not taken apart. -/
theorem takenApart_eq_none_iff (dht : Bool) (name : CString) (args : Option CString) :
    takenApart dht name args = none ↔
      (CommandName.ofText name = some .chatSend ∨ CommandName.ofText name = some .ghost) ∧
        idFits args = false := by
  unfold takenApart
  cases CommandName.ofText name with
  | none => simp
  | some c => cases c <;> simp

theorem textForLongId_iff (cmd : CString) : TextForLongId cmd ↔
    (CommandName.ofText (splitCommand cmd).1 = some .chatSend ∨
      CommandName.ofText (splitCommand cmd).1 = some .ghost) ∧ idFits (splitCommand cmd).2 = false := by
  constructor
  · rintro ⟨name, id, text, which, first, long, whole⟩
    have noBlank : 32 ∉ name.text := by cases name <;> decide
    have split : splitCommand cmd = (name.text, some (id ++ 32 :: text)) := by
      unfold splitCommand commandCopy cut
      rw [whole, splitArgs_append noBlank]
    rw [split]
    dsimp only
    rw [CommandName.ofText_text]
    refine ⟨which.imp (congrArg some) (congrArg some), ?_⟩
    unfold idFits
    rw [Option.bind_some, splitArgs_append first]
    exact decide_eq_false (Nat.not_lt.2 long)
  · rintro ⟨which, unfit⟩
    unfold splitCommand at which unfit
    rcases splitArgs_cases (commandCopy cmd) with ⟨-, none_⟩ | ⟨name, args, whole, -, some_⟩
    · rw [none_] at unfit
      cases unfit
    · rw [some_] at which unfit
      dsimp only at which unfit
      rcases splitArgs_cases args with ⟨-, none_⟩ | ⟨id, text, rfl, first, split⟩
      · unfold idFits at unfit
        rw [Option.bind_some, none_] at unfit
        cases unfit
      · unfold idFits at unfit
        rw [Option.bind_some, split] at unfit
        have long := Nat.not_lt.1 (of_decide_eq_false unfit)
        rcases which with chat | ghost
        · exact ⟨.chatSend, id, text, Or.inl rfl, first, long, eq_text_of_ofText chat ▸ whole⟩
        · exact ⟨.ghost, id, text, Or.inr rfl, first, long, eq_text_of_ofText ghost ▸ whole⟩

/-- A command that takes no listing runs as it was taken apart. -/
theorem daemonHandleCommand_eq_none_iff (stack : CommandStack) (env : DaemonEnv) {cmd : CString} (d : Daemon)
    (h : 0 ∉ cmd) (noListing : CommandName.ofText (splitCommand cmd).1 ≠ some .peers) :
    daemonHandleCommand env cmd d = none ↔ stack.parseCommand d.dht cmd = none := by
  rw [parseCommand_eq stack d.dht h, takenApart_eq_none_iff]
  unfold daemonHandleCommand
  dsimp only
  cases command : CommandName.ofText (splitCommand cmd).1 with
  | none => simp
  | some c =>
    rw [command] at noListing
    cases c <;> simp [runCommand] at noListing ⊢

/-- Whatever is read into the buffer of the connection. -/
theorem parses_well_iff (stack : CommandStack) (dht : Bool) (read : Bytes) :
    ParsesWell stack dht (strAt read 0) ↔ ¬ TextForLongId (strAt read 0) := by
  have clean : 0 ∉ strAt read 0 := by
    intro mem
    have := List.mem_takeWhile_imp mem
    simp at this
  have apart := parseCommand_eq stack dht clean
  have none_ := takenApart_eq_none_iff dht (splitCommand (strAt read 0)).1 (splitCommand (strAt read 0)).2
  rw [← textForLongId_iff, ← apart] at none_
  rw [← none_]
  unfold ParsesWell
  constructor
  · rintro ⟨p, parsed, -⟩ lost
    rw [parsed] at lost
    cases lost
  · intro some_
    obtain ⟨p, parsed⟩ := Option.ne_none_iff_exists'.1 some_
    exact ⟨p, parsed, fun id taken => cut_of_takenApart (apart ▸ parsed) taken⟩

/-- A stack of zeros. -/
def CommandStack.zero : CommandStack where
  cmdCopy := List.replicate 512 0
  peerId := List.replicate idSize 0
  message := List.replicate 4096 0
  cmdCopySize := List.length_replicate
  peerIdSize := List.length_replicate
  messageSize := List.length_replicate

/-- `ghost` with an id of 64 characters: the terminator is stored behind `peer_id`. -/
theorem ghost_id_outside :
    ¬ ParsesWell CommandStack.zero false (ascii "ghost " ++ List.replicate 64 97 ++ ascii " hello") := by
  rintro ⟨p, parsed, -⟩
  have outside : CommandStack.zero.parseCommand false
      (ascii "ghost " ++ List.replicate 64 97 ++ ascii " hello") = none := by
    decide +kernel
  rw [parsed] at outside
  cases outside

end Orcashi
