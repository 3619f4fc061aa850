import Orcashi.DaemonCommand
import Orcashi.Lib.Strcat
import Orcashi.Lib.Stdio

/-!
# The way of a text to the daemon

What the user types in `cmd_chat`, or gives to `cmd_ghost` on the command line, goes into a
`char[512]` together with the name of the command and the id.  The words of a ghost message are
first joined where they lie, behind the first of them.
-/

namespace Orcashi

open CMemory Stdio

/-! ## The client -/

/-- `input` after `strcspn` has cut the newline off. -/
def chatInput (line : Bytes) : CString := (strAt line 0).takeWhile fun c => c != 10

/-- `snprintf(cmd, sizeof(cmd), "<name> %s %s", peer_id, text)`. -/
def textCommand (name : CommandName) (peerId text : CString) : CString :=
  cut 512 (name.text ++ 32 :: peerId ++ 32 :: text)

/-- The commands the loop of `cmd_chat` sends for the lines it reads. -/
def chatLoop (peerId : CString) : List Bytes → List CString
  | [] => []
  | line :: lines =>
    if chatInput line = ascii "/exit" then []
    else if chatInput line = ascii "/status" then chatLoop peerId lines
    else textCommand .chatSend peerId (chatInput line) :: chatLoop peerId lines

/-- `cmd_chat` with `input[4096]` on what is typed. -/
def cmdChat (peerId : CString) (typed : Bytes) : List CString := chatLoop peerId (fgets 4096 typed)

/-- The command `cmd_ghost` sends: `argv` lies in one piece, with the environment behind it. -/
def cmdGhost (argv : List CString) (environ : Bytes) : Option CString :=
  match starts 0 argv with
  | _ :: _ :: peerId :: message :: more =>
    let mem := appendWords (layout argv ++ environ) message more
    some (textCommand .ghost (strAt mem peerId) (strAt mem message))
  | _ => none

/-! ## The daemon -/

/-- The id and the text that the command of this name passes on. -/
def passedText (name : CommandName) (cmd : CString) : Option (CString × CString) :=
  let (cmdName, args) := splitCommand (ipcRequest cmd)
  if CommandName.ofText cmdName = some name then args.bind splitArgs else none

/-- A command that passes a text on is run with the arguments it came with. -/
theorem runs_of_passedText {name : CommandName} {cmd peerId text : CString}
    (h : passedText name cmd = some (peerId, text)) (env : DaemonEnv) (d : Daemon) :
    ∃ args, args.bind splitArgs = some (peerId, text) ∧
      daemonHandleCommand env (ipcRequest cmd) d = runCommand env name args d := by
  unfold passedText at h
  unfold daemonHandleCommand
  generalize splitCommand (ipcRequest cmd) = parts at h ⊢
  obtain ⟨cmdName, args⟩ := parts
  dsimp only at h ⊢
  split_ifs at h with known
  rw [known]
  exact ⟨args, h, rfl⟩

/-- What `daemon_cmd_chat_send` passes to `p2p_send`. -/
theorem chat_send_passes {cmd peerId text : CString} (env : DaemonEnv) {d : Daemon}
    (h : passedText .chatSend cmd = some (peerId, text)) (short : peerId.length < idSize)
    (connected : p2pIsConnected peerId d.node = true) :
    ∃ r, daemonHandleCommand env (ipcRequest cmd) d = some r ∧
      (r.ret = 0 ↔ (p2pSend env.toEnv peerId text d.node).1 = 0) ∧
      r.daemon.node.peers = (p2pSend env.toEnv peerId text d.node).2.peers ∧
      r.daemon.node.shared.trace = (p2pSend env.toEnv peerId text d.node).2.shared.trace := by
  obtain ⟨args, split, runs⟩ := runs_of_passedText h env d
  obtain ⟨args, rfl, split'⟩ := Option.bind_eq_some_iff.1 split
  refine ⟨(daemonCmdChatSend env.toEnv (some args) d.node).toDaemon d, ?_, ?_⟩
  · rw [runs, runCommand, if_pos (idFits_of_split split short)]
  · unfold daemonCmdChatSend
    dsimp only
    rw [split']
    dsimp only
    rw [connected, Bool.not_true, if_neg Bool.false_ne_true]
    by_cases sent : (p2pSend env.toEnv peerId text d.node).1 = 0
    · rw [if_pos sent]
      exact ⟨⟨fun _ => sent, fun _ => rfl⟩, rfl, rfl⟩
    · rw [if_neg sent]
      exact ⟨⟨fun failed => absurd (show (-1 : ℤ) = 0 from failed) (by decide), fun ok => absurd ok sent⟩, rfl, rfl⟩

/-- What `daemon_cmd_ghost` passes to `state_add_ghost_message`. -/
theorem ghost_passes {cmd peerId text : CString} (env : DaemonEnv) (d : Daemon)
    (h : passedText .ghost cmd = some (peerId, text)) (short : peerId.length < idSize) :
    ∃ r, daemonHandleCommand env (ipcRequest cmd) d = some r ∧
      r.daemon.sm = (stateAddGhostMessage env.now env.rand peerId text d.sm).2 := by
  obtain ⟨args, split, runs⟩ := runs_of_passedText h env d
  obtain ⟨args, rfl, split'⟩ := Option.bind_eq_some_iff.1 split
  refine ⟨(daemonCmdGhost env.toEnv (some args) d.node).toDaemon d, ?_, ?_⟩
  · rw [runs, runCommand, if_pos (idFits_of_split split short)]
  · unfold daemonCmdGhost
    dsimp only
    rw [split']
    rfl

/-! ## What arrives -/

theorem length_name_le (name : CommandName) : name.text.length ≤ 9 := by cases name <;> decide

/-- A text arrives cut off where the command is full. -/
theorem passedText_textCommand (name : CommandName) {peerId : CString} (text : CString)
    (noBlank : 32 ∉ peerId) (short : peerId.length < idSize) :
    passedText name (textCommand name peerId text)
      = some (peerId, text.take (509 - name.text.length - peerId.length)) := by
  have nameLen := length_name_le name
  unfold idSize at short
  have front : (name.text ++ 32 :: (peerId ++ [32])).length = name.text.length + peerId.length + 2 := by
    simp only [List.length_append, List.length_cons, List.length_nil]
    omega
  have written : textCommand name peerId text =
      name.text ++ 32 :: (peerId ++ 32 :: text.take (509 - name.text.length - peerId.length)) := by
    have parts : name.text ++ 32 :: peerId ++ 32 :: text =
        (name.text ++ 32 :: (peerId ++ [32])) ++ text := by simp
    have room : 512 - 1 - (name.text ++ 32 :: (peerId ++ [32])).length =
        509 - name.text.length - peerId.length := by
      rw [front]
      omega
    unfold textCommand cut
    rw [parts, List.take_append, room, List.take_of_length_le (by rw [front]; omega)]
    simp
  have whole : (textCommand name peerId text).length ≤ 511 := List.length_take_le _ _
  have request : ipcRequest (textCommand name peerId text) = textCommand name peerId text :=
    List.take_of_length_le (le_trans whole (by decide))
  have copy : commandCopy (textCommand name peerId text) = textCommand name peerId text :=
    List.take_of_length_le whole
  unfold passedText splitCommand
  rw [request, copy, written, splitArgs_append (by cases name <;> decide)]
  dsimp only
  rw [CommandName.ofText_text, if_pos rfl, Option.bind_some, splitArgs_append noBlank]

/-- A text arrives whole exactly if the command has room for it. -/
theorem arrives_iff (name : CommandName) {peerId : CString} (text : CString) (noBlank : 32 ∉ peerId)
    (short : peerId.length < idSize) :
    passedText name (textCommand name peerId text) = some (peerId, text)
      ↔ name.text.length + peerId.length + text.length ≤ 509 := by
  have nameLen := length_name_le name
  unfold idSize at short
  rw [passedText_textCommand name text noBlank short, Option.some_inj, Prod.mk.injEq]
  constructor
  · rintro ⟨-, whole⟩
    have len := congrArg List.length whole
    rw [List.length_take] at len
    omega
  · intro room
    exact ⟨rfl, List.take_of_length_le (by omega)⟩

/-! ## Chat -/

/-- The loop on a line that is one of its words, and on any other. -/
theorem cmdChat_line (peerId : CString) {msg : CString} (text : 0 ∉ msg) (oneLine : 10 ∉ msg)
    (room : msg.length + 1 < 4096) :
    cmdChat peerId (msg ++ [10])
      = if msg = ascii "/exit" ∨ msg = ascii "/status" then []
        else [textCommand .chatSend peerId msg] := by
  have line : fgets 4096 (msg ++ [10]) = [msg ++ [10]] := fgets_line oneLine room
  have whole : strAt (msg ++ [10]) 0 = msg ++ [10] := by
    unfold strAt
    rw [List.drop_zero, List.takeWhile_eq_self_iff]
    intro c hc
    rw [bne_iff_ne]
    rintro rfl
    rcases List.mem_append.1 hc with hc | hc
    · exact text hc
    · exact absurd (List.mem_singleton.1 hc) (by decide)
  have input : chatInput (msg ++ [10]) = msg := by
    unfold chatInput
    rw [whole]
    refine takeWhile_append_stop ?_ ?_
    · intro c hc
      rw [bne_iff_ne]
      rintro rfl
      exact oneLine hc
    · intro c hc
      obtain rfl := Option.some.inj hc
      rfl
  unfold cmdChat
  rw [line, chatLoop, chatLoop, input]
  by_cases exit : msg = ascii "/exit"
  · rw [if_pos exit, if_pos (Or.inl exit)]
  · rw [if_neg exit]
    by_cases status : msg = ascii "/status"
    · rw [if_pos status, if_pos (Or.inr status)]
    · rw [if_neg status, if_neg (by tauto)]

/-- Whatever is typed, the loop sends texts as commands. -/
theorem mem_chatLoop {peerId cmd : CString} {lines : List Bytes} (h : cmd ∈ chatLoop peerId lines) :
    ∃ text, cmd = textCommand .chatSend peerId text := by
  induction lines with
  | nil => cases h
  | cons line lines ih =>
    unfold chatLoop at h
    split_ifs at h
    · cases h
    · exact ih h
    · rcases List.mem_cons.1 h with rfl | h
      · exact ⟨_, rfl⟩
      · exact ih h

theorem chat_arrives_iff {peerId msg : CString} (noBlank : 32 ∉ peerId)
    (short : peerId.length < idSize) (text : 0 ∉ msg) (oneLine : 10 ∉ msg) :
    (cmdChat peerId (msg ++ [10])).map (passedText .chatSend) = [some (peerId, msg)]
      ↔ peerId.length + msg.length ≤ 500 ∧ msg ≠ ascii "/exit" ∧ msg ≠ ascii "/status" := by
  constructor
  · intro h
    have arrived : some (peerId, msg) ∈ (cmdChat peerId (msg ++ [10])).map (passedText .chatSend) := by
      rw [h]
      exact List.mem_singleton_self _
    obtain ⟨cmd, sent, passed⟩ := List.mem_map.1 arrived
    obtain ⟨typed, rfl⟩ := mem_chatLoop sent
    rw [passedText_textCommand .chatSend typed noBlank short, Option.some_inj, Prod.mk.injEq] at passed
    have len : msg.length ≤ 500 - peerId.length := by
      rw [← passed.2]
      exact List.length_take_le _ _
    unfold idSize at short
    have room : peerId.length + msg.length ≤ 500 := by omega
    rw [cmdChat_line peerId text oneLine (by omega)] at h
    split_ifs at h with word
    · cases h
    · exact ⟨room, fun exit => word (Or.inl exit), fun status => word (Or.inr status)⟩
  · rintro ⟨room, exit, status⟩
    have fits : CommandName.chatSend.text.length + peerId.length + msg.length ≤ 509 := by
      have name : CommandName.chatSend.text.length = 9 := rfl
      omega
    rw [cmdChat_line peerId text oneLine (by omega), if_neg (by tauto), List.map_singleton,
      (arrives_iff .chatSend msg noBlank short).2 fits]

/-! ## Ghost messages -/

/-- The command joins what `strcat` leaves of the words. -/
theorem cmdGhost_eq (program verb : CString) {peerId word : CString} {words : List CString}
    (hid : 0 ∉ peerId) (hword : 0 ∉ word) (hwords : ∀ w ∈ words, 0 ∉ w) (environ : Bytes) :
    cmdGhost (program :: verb :: peerId :: word :: words) environ
      = some (textCommand .ghost peerId (glue word 0 words)) := by
  have front : (layout [program, verb, peerId]).length =
      program.length + 1 + verb.length + 1 + peerId.length + 1 := by
    simp only [layout, List.flatMap_cons, List.flatMap_nil, List.length_append, List.length_cons,
      List.length_nil]
    omega
  have before : (layout [program, verb]).length = program.length + 1 + verb.length + 1 := by
    simp only [layout, List.flatMap_cons, List.flatMap_nil, List.length_append, List.length_cons,
      List.length_nil]
    omega
  have args : layout (program :: verb :: peerId :: word :: words) ++ environ =
      layout [program, verb, peerId] ++ (word ++ 0 :: ([] ++ (layout words ++ environ))) := by
    simp [layout]
  have place : (layout [program, verb, peerId]).length + word.length + 1 =
      (layout [program, verb, peerId]).length + word.length + 1 + ([] : Bytes).length := rfl
  obtain ⟨clean, rest, joinedUp⟩ := @appendWords_eq _ word [] words _ hword hwords place environ
  have split (R : Bytes) : layout [program, verb, peerId] ++ R =
      layout [program, verb] ++ (peerId ++ 0 :: R) := by
    simp [layout]
  unfold cmdGhost
  rw [starts, starts, starts, starts, Nat.zero_add, ← before, before, ← front, args]
  dsimp only
  rw [joinedUp, strAt_append clean, split, ← before, strAt_append hid]
  rfl

theorem ghost_arrives_iff (program verb : CString) {peerId word : CString} {words : List CString}
    (noBlank : 32 ∉ peerId) (short : peerId.length < idSize) (hid : 0 ∉ peerId) (hword : 0 ∉ word)
    (hwords : ∀ w ∈ words, 0 ∉ w) (environ : Bytes) :
    (cmdGhost (program :: verb :: peerId :: word :: words) environ).bind (passedText .ghost)
        = some (peerId, joined word words)
      ↔ (∀ w ∈ words, w = []) ∧ peerId.length + (joined word words).length ≤ 504 := by
  have name : CommandName.ghost.text.length = 5 := rfl
  rw [cmdGhost_eq program verb hid hword hwords environ, Option.bind_some, ← glue_eq_joined_iff word]
  constructor
  · intro h
    rw [passedText_textCommand .ghost _ noBlank short, Option.some_inj, Prod.mk.injEq] at h
    have len := congrArg List.length h.2
    rw [List.length_take] at len
    have le := length_glue_le word 0 words
    unfold idSize at short
    have whole := h.2
    rw [List.take_of_length_le (by omega)] at whole
    exact ⟨whole, by omega⟩
  · rintro ⟨whole, room⟩
    rw [whole]
    exact (arrives_iff .ghost _ noBlank short).2 (by omega)

/-! ## Both ways -/

/-- A typed text arrives as it is exactly if the command has room for it and it is not one of the
words of the loop; the words of a ghost message do exactly if all but the first are empty and the
command has room for them. -/
theorem user_text_arrives_iff {peerId : CString} (noBlank : 32 ∉ peerId)
    (short : peerId.length < idSize) (hid : 0 ∉ peerId) :
    (∀ msg : CString, 0 ∉ msg → 10 ∉ msg →
      ((cmdChat peerId (msg ++ [10])).map (passedText .chatSend) = [some (peerId, msg)]
        ↔ peerId.length + msg.length ≤ 500 ∧ msg ≠ ascii "/exit" ∧ msg ≠ ascii "/status")) ∧
    ∀ (program verb word : CString) (words : List CString) (environ : Bytes), 0 ∉ word →
      (∀ w ∈ words, 0 ∉ w) →
      ((cmdGhost (program :: verb :: peerId :: word :: words) environ).bind (passedText .ghost)
          = some (peerId, joined word words)
        ↔ (∀ w ∈ words, w = []) ∧ peerId.length + (joined word words).length ≤ 504) :=
  ⟨fun _ text oneLine => chat_arrives_iff noBlank short text oneLine,
    fun program verb _ _ environ hword hwords =>
      ghost_arrives_iff program verb noBlank short hid hword hwords environ⟩

theorem user_text_of_bob :
    (cmdChat (ascii "bob") (ascii "hi there" ++ [10])).map (passedText .chatSend)
        = [some (ascii "bob", ascii "hi there")] ∧
      (cmdGhost [ascii "./orcashi", ascii "ghost", ascii "bob", ascii "hi there"] []).bind
        (passedText .ghost) = some (ascii "bob", ascii "hi there") :=
  have arrives := @user_text_arrives_iff (ascii "bob") (by decide) (by decide) (by decide)
  ⟨(arrives.1 (ascii "hi there") (by decide) (by decide)).2 (by decide),
    (arrives.2 (ascii "./orcashi") (ascii "ghost") (ascii "hi there") [] [] (by decide)
      (by decide)).2 (by decide)⟩

/-- The second word is lost. -/
theorem ghost_loses_second_word :
    (cmdGhost [ascii "./orcashi", ascii "ghost", ascii "bob", ascii "hello", ascii "world"] []).bind
        (passedText .ghost) = some (ascii "bob", ascii "hello ") ∧
      joined (ascii "hello") [ascii "world"] = ascii "hello world" := by
  constructor
  · rw [cmdGhost_eq _ _ (by decide) (by decide) (by decide)]
    decide
  · decide

end Orcashi
