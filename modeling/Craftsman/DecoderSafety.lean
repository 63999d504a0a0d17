import Craftsman.Client

/-! What arbitrary peer bytes can make the decoder do. The safety of a call is
stated at every loop head it passes; the blocks for which it holds are read off
the buffer alone. -/
namespace Craftsman.DecoderSafety
open Craftsman.Memory Craftsman.Recording Craftsman.Client

inductive Rounds : Nat → Connection → Recordings → Connection → Recordings → Prop
  | start (conn recording) : Rounds 0 conn recording conn recording
  | round (n conn recording after stored last final)
      (step : processingRound conn recording = .ok (.next after stored))
      (later : Rounds n after stored last final) : Rounds (n+1) conn recording last final

/-- A whole block is there: it is printed, and its player is looked at. -/
def Complete (conn : Connection) : Prop :=
  8 ≤ conn.usedReceiveBuffer ∧ conn.length ≤ conn.usedReceiveBuffer

/-- The round goes past the tests for a short block and for a player id that is too large. -/
def Admitted (conn : Connection) : Prop := Complete conn ∧ conn.clientId < 4

def Known (conn : Connection) (recording : Recordings) : Prop :=
  ∃ id : Fin 4, conn.clientId = id.val ∧ (recording id).record ≠ none

structure RoundSafe (conn : Connection) (recording : Recordings) : Prop where
  index : 0 ≤ conn.clientId ∧ conn.clientId < 4
  consumes : Known conn recording → 8 ≤ conn.length ∧ conn.length ≤ conn.usedReceiveBuffer
  appends : Known conn recording →
    (8 + size (int32 (conn.blockLen - 1)) : Nat) ≤ conn.usedReceiveBuffer

structure CallSafe (conn : Connection) (recording : Recordings) : Prop where
  terminates : ∀ n last final, Rounds n conn recording last final → (8 * n : Nat) ≤ conn.usedReceiveBuffer
  bounded : ∀ n last final, Rounds n conn recording last final →
    0 ≤ last.usedReceiveBuffer ∧ last.usedReceiveBuffer ≤ 4096
  prints : ∀ n last final, Rounds n conn recording last final → Complete last → last.Printable
  rounds : ∀ n last final, Rounds n conn recording last final → Admitted last → RoundSafe last final

/-- A block longer than one byte has a NUL somewhere behind its header. -/
def Closed (buffer : List Byte) : Prop := 9 < int32 (8 + readInt buffer) → 0 ∈ buffer.drop 8

/-- The blocks of the first `used` bytes of the buffer, up to the one that ends the call,
have a positive length, a player id that is not negative and a NUL behind their header. -/
inductive Benign : Recordings → List Byte → Int → Prop
  | incomplete (recording buffer used) (short : used < 8 ∨ used < int32 (8 + readInt buffer)) :
      Benign recording buffer used
  | tooLarge (recording buffer used) (closed : Closed buffer) (large : 4 ≤ playerId buffer) :
      Benign recording buffer used
  | newPlayer (recording buffer used) (id : Fin 4) (closed : Closed buffer) (player : playerId buffer = id.val)
      (absent : (recording id).record = none) : Benign recording buffer used
  | block (recording buffer used) (id : Fin 4) (record) (closed : Closed buffer) (player : playerId buffer = id.val)
      (present : (recording id).record = some record) (positive : 1 ≤ readInt buffer)
      (complete : 8 + readInt buffer ≤ used)
      (rest : ∀ appended write,
        recordAppend (readInt buffer - 1).toNat (buffer.drop 8) record (recording id).write = .ok (appended,write) →
        Benign (Function.update recording id {recording id with record := some appended, write := write})
          (moveDown buffer (8 + readInt buffer).toNat (4096 - (8 + readInt buffer).toNat))
          (used - (8 + readInt buffer))) : Benign recording buffer used

theorem closed_iff (conn : Connection) : Closed conn.receiveBuffer ↔ conn.Printable :=
  forall_congr' fun _ =>
    ⟨fun closed => ⟨List.drop_subset_drop_left _ (by decide) closed,closed⟩,fun both => both.2⟩

theorem Rounds.used_le {n : Nat} {conn last : Connection} {recording final : Recordings}
    (rounds : Rounds n conn recording last final) :
    last.usedReceiveBuffer + (9 * n : Nat) ≤ conn.usedReceiveBuffer ∧
      (0 ≤ conn.usedReceiveBuffer → 0 ≤ last.usedReceiveBuffer) := by
  induction rounds with
  | start conn recording => simp
  | round n conn recording after stored last final step later ih =>
    obtain ⟨low,high,used,_⟩ := round_next _ _ _ _ step
    omega

/-- What a round that goes on leaves in the buffer and in the recordings. -/
theorem round_leaves (conn after : Connection) (recording stored : Recordings) (id : Fin 4) (record : Record)
    (player : conn.clientId = id.val) (present : (recording id).record = some record)
    (step : processingRound conn recording = .ok (.next after stored)) :
    ∃ appended write, recordAppend (conn.blockLen - 1).toNat (conn.receiveBuffer.drop 8) record (recording id).write =
        .ok (appended,write) ∧
      conn.length = 8 + conn.blockLen ∧
      stored = Function.update recording id {recording id with record := some appended, write := write} ∧
      after.receiveBuffer = moveDown conn.receiveBuffer conn.length.toNat (4096 - conn.length.toNat) ∧
      after.usedReceiveBuffer = conn.usedReceiveBuffer - conn.length := by
  rcases round_ok _ _ _ step with ⟨_,wrong⟩ | ⟨_,_,other,there,⟨_,wrong⟩ | ⟨found,_,_,known,store,done⟩⟩
  · cases wrong
  · cases wrong
  · cases done
    obtain rfl : other = id := Fin.ext (by omega)
    obtain rfl : record = found := Option.some.inj (present.symm.trans known)
    obtain ⟨appended,write,append,_,length,_,buffer,used,_,_,_,stores⟩ := storeMessage_ok _ _ _ _ _ _ store
    exact ⟨appended,write,append,length,stores,buffer,used⟩

theorem CallSafe.later {conn after : Connection} {recording stored : Recordings}
    (safe : CallSafe conn recording) (step : processingRound conn recording = .ok (.next after stored)) :
    CallSafe after stored := by
  refine ⟨?_,?_,?_,?_⟩
  · intro n last final rounds
    have used := rounds.used_le
    have bound := safe.bounded 1 after stored (.round _ _ _ _ _ _ _ step (.start _ _))
    omega
  · intro n last final rounds
    exact safe.bounded (n+1) last final (.round _ _ _ _ _ _ _ step rounds)
  · intro n last final rounds
    exact safe.prints (n+1) last final (.round _ _ _ _ _ _ _ step rounds)
  · intro n last final rounds
    exact safe.rounds (n+1) last final (.round _ _ _ _ _ _ _ step rounds)

theorem benign_of_safe (size : Nat) : ∀ (conn : Connection) (recording : Recordings),
    conn.usedReceiveBuffer.toNat = size → 0 ≤ conn.usedReceiveBuffer → conn.usedReceiveBuffer ≤ 4096 →
    CallSafe conn recording → Benign recording conn.receiveBuffer conn.usedReceiveBuffer := by
  induction size using Nat.strong_induction_on with
  | _ size ih =>
    intro conn recording measure low high safe
    by_cases complete : Complete conn
    swap
    · have short : conn.usedReceiveBuffer < 8 ∨ conn.usedReceiveBuffer < conn.length := by
        unfold Complete at complete
        omega
      exact .incomplete _ _ _ short
    have prints := safe.prints 0 conn recording (.start _ _) complete
    have closed := (closed_iff conn).mpr prints
    rcases Int.lt_or_le conn.clientId 4 with small | large
    swap
    · exact .tooLarge _ _ _ closed large
    obtain ⟨index,consumes,appends⟩ := safe.rounds 0 conn recording (.start _ _) ⟨complete,small⟩
    let id : Fin 4 := ⟨conn.clientId.toNat,by omega⟩
    have here : conn.clientId = id.val := by simp only [id]; omega
    cases present : (recording id).record with
    | none => exact .newPlayer _ _ _ id closed here present
    | some record =>
      have known : Known conn recording := ⟨id,here,by simp [present]⟩
      obtain ⟨positive,length,fits⟩ : 1 ≤ conn.blockLen ∧ conn.length = 8 + conn.blockLen ∧
          8 + conn.blockLen ≤ conn.usedReceiveBuffer := by
        have passed := appends known
        have whole := complete.2
        obtain ⟨positive,_,length,_⟩ := block_positive conn (by rw [List.length_drop,conn.sized]; omega)
        exact ⟨positive,length,by omega⟩
      refine .block _ _ _ id record closed here present positive fits ?_
      intro appended write append
      obtain ⟨after,step⟩ := round_block conn recording id record appended write high positive fits prints here present
        append
      obtain ⟨_,_,_,_,_,buffer,used⟩ := round_leaves conn after recording _ id record here present step
      have rest := ih after.usedReceiveBuffer.toNat (by omega) after _ rfl (by omega) (by omega) (safe.later step)
      rwa [buffer,used,length] at rest

def Ends (conn : Connection) (recording : Recordings) : Prop :=
  ∀ after stored, processingRound conn recording ≠ .ok (.next after stored)

theorem Rounds.ended {n : Nat} {conn last : Connection} {recording final : Recordings}
    (rounds : Rounds n conn recording last final) (ends : Ends conn recording) : last = conn ∧ final = recording := by
  cases rounds with
  | start => exact ⟨rfl,rfl⟩
  | round n _ _ after stored _ _ step later => exact absurd step (ends after stored)

/-- What is asked of a loop head of the call. -/
def HeadSafe (conn : Connection) (recording : Recordings) : Prop :=
  (Complete conn → conn.Printable) ∧ (Admitted conn → RoundSafe conn recording)

theorem incomplete_safe (conn : Connection) (recording : Recordings)
    (short : conn.usedReceiveBuffer < 8 ∨ conn.usedReceiveBuffer < conn.length) :
    Ends conn recording ∧ HeadSafe conn recording := by
  have incomplete : ¬ Complete conn := by
    unfold Complete
    omega
  refine ⟨?_,fun complete => absurd complete incomplete,fun admitted => absurd admitted.1 incomplete⟩
  intro after stored step
  have long := round_next _ _ _ _ step
  omega

theorem too_large_safe (conn : Connection) (recording : Recordings) (prints : conn.Printable) (large : 4 ≤ conn.clientId) :
    Ends conn recording ∧ HeadSafe conn recording := by
  refine ⟨?_,fun _ => prints,fun admitted => absurd admitted.2 (by omega)⟩
  intro after stored step
  rcases round_ok _ _ _ step with ⟨_,wrong⟩ | ⟨_,_,id,small,_⟩
  · cases wrong
  · have := id.isLt
    omega

theorem new_player_safe (conn : Connection) (recording : Recordings) (id : Fin 4) (prints : conn.Printable)
    (player : conn.clientId = id.val) (absent : (recording id).record = none) :
    Ends conn recording ∧ HeadSafe conn recording := by
  have unknown : ¬ Known conn recording := by
    rintro ⟨other,there,present⟩
    exact present (by rw [Fin.ext (by omega : other.val = id.val)]; exact absent)
  have inside := id.isLt
  refine ⟨?_,fun _ => prints,fun _ => ⟨by omega,fun known => absurd known unknown,fun known => absurd known unknown⟩⟩
  intro after stored step
  rcases round_ok _ _ _ step with ⟨_,wrong⟩ | ⟨_,_,other,there,⟨_,wrong⟩ | ⟨record,_,_,present,_⟩⟩
  · cases wrong
  · cases wrong
  · exact absurd ⟨other,there,by simp [present]⟩ unknown

theorem heads_of_benign (recording : Recordings) (buffer : List Byte) (used : Int) (benign : Benign recording buffer used) :
    ∀ conn : Connection, conn.receiveBuffer = buffer → conn.usedReceiveBuffer = used → used ≤ 4096 →
    ∀ n last final, Rounds n conn recording last final → HeadSafe last final := by
  induction benign with
  | incomplete recording buffer used short =>
    rintro conn rfl rfl high n last final rounds
    obtain ⟨ends,safe⟩ := incomplete_safe conn recording short
    obtain ⟨rfl,rfl⟩ := rounds.ended ends
    exact safe
  | tooLarge recording buffer used closed large =>
    rintro conn rfl rfl high n last final rounds
    obtain ⟨ends,safe⟩ := too_large_safe conn recording ((closed_iff conn).mp closed) large
    obtain ⟨rfl,rfl⟩ := rounds.ended ends
    exact safe
  | newPlayer recording buffer used id closed player absent =>
    rintro conn rfl rfl high n last final rounds
    obtain ⟨ends,safe⟩ := new_player_safe conn recording id ((closed_iff conn).mp closed) player absent
    obtain ⟨rfl,rfl⟩ := rounds.ended ends
    exact safe
  | block recording buffer used id record closed player present positive complete rest ih =>
    rintro conn rfl rfl high n last final rounds
    have here : conn.clientId = id.val := player
    have block : 1 ≤ conn.blockLen ∧ 8 + conn.blockLen ≤ conn.usedReceiveBuffer := ⟨positive,complete⟩
    have length : conn.length = 8 + conn.blockLen := int32_of_bounds (by omega) (by omega)
    have inside := id.isLt
    cases rounds with
    | start =>
      refine ⟨fun _ => (closed_iff conn).mp closed,fun _ => ⟨by omega,fun _ => by omega,fun _ => ?_⟩⟩
      rw [int32_of_bounds (by omega) (by omega),size_of_bounds (by omega) (by omega)]
      omega
    | round n _ _ after stored _ _ step later =>
      obtain ⟨appended,write,append,_,rfl,buffer,used⟩ :=
        round_leaves conn after recording stored id record here present step
      rw [length] at buffer used
      exact ih appended write append after buffer used (by omega) n last final later

/-- One call of the decoder is safe on exactly the benign buffers. -/
theorem callSafe_iff_benign (conn : Connection) (recording : Recordings)
    (low : 0 ≤ conn.usedReceiveBuffer) (high : conn.usedReceiveBuffer ≤ 4096) :
    CallSafe conn recording ↔ Benign recording conn.receiveBuffer conn.usedReceiveBuffer := by
  constructor
  · exact benign_of_safe _ conn recording rfl low high
  · intro benign
    have heads := heads_of_benign recording _ _ benign conn rfl rfl high
    refine ⟨?_,?_,fun n last final rounds => (heads n last final rounds).1,
      fun n last final rounds => (heads n last final rounds).2⟩
    · intro n last final rounds
      have := rounds.used_le
      omega
    · intro n last final rounds
      have := rounds.used_le
      omega

def holding (bytes : List Byte) (fits : bytes.length ≤ 4096) : Connection :=
  {Connection.initial with
    receiveBuffer := bytes ++ List.replicate (4096 - bytes.length) 0
    usedReceiveBuffer := bytes.length
    sized := by rw [List.length_append,List.length_replicate]; omega}

/-- "A" and "BC" of player 0, and the first bytes of a third block. -/
def twoBlocks : Connection :=
  holding [2,0,0,0,48,48,48,0,65,0,3,0,0,0,48,48,48,0,66,67,0,2,0,0,0,48] (by decide)

theorem callSafe_two : CallSafe twoBlocks (fun _ => {RecordRW.empty with record := some recordAlloc}) := by
  refine (callSafe_iff_benign _ _ (by decide) (by decide)).mpr ?_
  refine .block _ _ _ 0 recordAlloc (fun _ => by decide) (by decide) rfl (by decide) (by decide) fun first write _ => ?_
  refine .block _ _ _ 0 first (fun _ => by decide) (by decide) (by rw [Function.update_self]) (by decide) (by decide)
    fun second write' _ => ?_
  exact .incomplete _ _ _ (.inl (by decide))

theorem filling_length : ([248,15,0,0,48,48,48,0] ++ List.replicate 4088 65 : List Byte).length = 4096 := by
  rw [List.length_append,List.length_replicate]
  rfl

/-- A block whose text has no NUL and ends with the buffer. -/
def filling : Connection := holding ([248,15,0,0,48,48,48,0] ++ List.replicate 4088 65) (Nat.le_of_eq filling_length)

theorem filling_full : filling.usedReceiveBuffer = 4096 ∧ filling.length = 4096 ∧ 0 ∉ filling.receiveBuffer.drop 8 := by
  refine ⟨congrArg Nat.cast filling_length,by decide,?_⟩
  have text : filling.receiveBuffer.drop 8 = List.replicate 4088 65 ++ List.replicate
    (4096 - ([248,15,0,0,48,48,48,0] ++ List.replicate 4088 65 : List Byte).length) 0 := rfl
  rw [text,filling_length,List.mem_append,not_or]
  exact ⟨fun member => absurd (List.eq_of_mem_replicate member) (by decide),List.not_mem_nil⟩

/-- A block of length zero for a known player asks for an append of `SIZE_MAX`
bytes; a character below `'0'` indexes the recordings in front of the first; a text
without a NUL that fills the buffer is printed past its end. -/
theorem hostile_not_callSafe :
    ¬ CallSafe (holding [0,0,0,0,48,48,48,0] (by decide)) (fun _ => {RecordRW.empty with record := some recordAlloc}) ∧
      ¬ CallSafe (holding [1,0,0,0,47,48,48,0,0] (by decide)) (fun _ => RecordRW.empty) ∧
      ¬ CallSafe filling (fun _ => RecordRW.empty) := by
  refine ⟨?_,?_,?_⟩
  · intro safe
    have reached := safe.rounds 0 _ _ (.start _ _) ⟨⟨by decide,by decide⟩,by decide⟩
    exact absurd (reached.appends ⟨0,by decide,by simp⟩) (by decide)
  · intro safe
    have reached := safe.rounds 0 _ _ (.start _ _) ⟨⟨by decide,by decide⟩,by decide⟩
    exact absurd reached.index (by decide)
  · intro safe
    obtain ⟨used,length,unclosed⟩ := filling_full
    have printed := safe.prints 0 _ _ (.start _ _) ⟨by omega,by omega⟩
    exact unclosed (printed (by rw [length]; decide)).2

end Craftsman.DecoderSafety
