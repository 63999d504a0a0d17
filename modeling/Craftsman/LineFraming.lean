import Craftsman.StandardInput

/-! What the handler of the standard input is called with, over any way of
cutting the stream into reads. -/
namespace Craftsman.LineFraming
open Craftsman.Memory Craftsman.Network Craftsman.StandardInput
open Craftsman.Stream.Delimited

structure Reader where
  input : Input
  wire : List Byte
  calls : List Event

def Reader.start (stream : List Byte) : Reader := ⟨.init,stream,[]⟩

def Reader.poll (reader : Reader) (poll : Poll) (count : Nat) : Except Stop Reader := do
  let (_,input,wire,events) ← inputPoll reader.input reader.wire poll (.upto count)
  return ⟨input,wire,reader.calls ++ events⟩

def Reader.chunk (reader : Reader) (count : Nat) : List Byte :=
  reader.wire.take (min count (size (bufLen - reader.input.usedBuf)))

/-- The bytes behind what the poll reads show no newline before their first NUL. -/
def Clear (reader : Reader) (poll : Poll) (count : Nat) : Prop :=
  ∀ bits, poll = .revents bits → flagged bits pollIn = true →
    newline ∉ visible (reader.input.buf.drop (reader.input.usedBuf.toNat + (reader.chunk count).length))

/-- No NUL, and no line longer than the buffer can hand over. -/
structure Legal (stream : List Byte) : Prop where
  nulFree : 0 ∉ stream
  lines : ∀ line ∈ (split newline stream).1, line.length ≤ 4094
  last : (split newline stream).2.length ≤ 4094

def Framed (stream : List Byte) (reader : Reader) : Prop :=
  ∃ read, stream = read ++ reader.wire ∧
    reader.calls = (split newline read).1.map (fun line => (line.length,line)) ∧
    0 ≤ reader.input.usedBuf ∧ reader.input.usedBuf ≤ bufLen ∧
    reader.input.buf.take reader.input.usedBuf.toNat = (split newline read).2

inductive Run (stream : List Byte) (condition : Reader → Poll → Nat → Prop) : Reader → Prop
  | start : Run stream condition (.start stream)
  | poll (reader after) (poll : Poll) (count : Nat) (run : Run stream condition reader)
      (met : condition reader poll count) (step : reader.poll poll count = .ok after) : Run stream condition after

theorem Legal.tail {stream read rest : List Byte} (legal : Legal stream) (cut : stream = read ++ rest) :
    (split newline read).2.length ≤ 4094 := by
  have parts := split_append newline read rest
  rw [← cut] at parts
  have lines := legal.lines
  have last := legal.last
  have wire := split_wire newline ((split newline read).2 ++ rest)
  rw [parts] at lines last
  have unclosed := (split_free newline read).2
  cases segments : (split newline ((split newline read).2 ++ rest)).1 with
  | nil =>
    rw [segments,encode_nil,List.nil_append] at wire
    rw [wire,List.length_append] at last
    exact Nat.le_trans (Nat.le_add_right _ _) last
  | cons line more =>
    rw [segments,encode_cons,List.append_assoc] at wire
    have inside := open_inside newline _ _ line _ unclosed wire.symm
    exact Nat.le_trans inside.length_le (lines line (by simp [segments]))

theorem framed_start (stream : List Byte) : Framed stream (.start stream) :=
  ⟨[],rfl,rfl,Int.le_refl 0,(by decide : (0 : Int) ≤ 4095),rfl⟩

theorem deliver_visible (input : Input) (tail chunk : List Byte) (low : 0 ≤ input.usedBuf)
    (front : input.buf.take input.usedBuf.toNat = tail) (fits : input.usedBuf.toNat + chunk.length ≤ bufLen) :
    ∃ received rest, input.deliver chunk = .ok received ∧
      received.usedBuf = input.usedBuf + chunk.length ∧
      received.buf = (tail ++ chunk ++ visible (input.buf.drop (input.usedBuf.toNat + chunk.length))) ++ 0::rest := by
  have closed : 0 ∈ input.buf.drop (input.usedBuf.toNat + chunk.length) := by
    have last := input.terminated
    rw [← Nat.add_sub_cancel' fits,← List.getElem?_drop] at last
    exact List.mem_of_getElem? last
  obtain ⟨rest,behind⟩ := visible_split _ closed
  unfold Input.deliver
  by_cases empty : chunk = []
  · refine ⟨input,rest,if_pos empty,by simp [empty],?_⟩
    rw [List.append_assoc,← behind,empty,List.append_nil,List.length_nil,Nat.add_zero,← front,
      List.take_append_drop]
  · rw [if_neg empty,dif_pos ⟨low,fits⟩]
    refine ⟨_,rest,rfl,rfl,?_⟩
    rw [List.append_assoc,← behind,← front]
    rfl

theorem drain_clear (received : Input) (tail chunk stale rest : List Byte) (nulFree : 0 ∉ tail ++ chunk ++ stale)
    (buf : received.buf = (tail ++ chunk ++ stale) ++ 0::rest) (used : received.usedBuf = tail.length + chunk.length)
    (short : (split newline (tail ++ chunk)).2.length ≤ 4094) (clear : newline ∉ stale) :
    (drainLines received).1 = (split newline (tail ++ chunk)).1.map (fun line => (line.length,line)) ∧
      (drainLines received).2.dropLong.usedBuf = (split newline (tail ++ chunk)).2.length ∧
      (drainLines received).2.dropLong.buf.take (split newline (tail ++ chunk)).2.length =
        (split newline (tail ++ chunk)).2 := by
  obtain ⟨events,⟨later,after⟩,left⟩ := drain_visible received _ _ nulFree buf
  have unclosed : newline ∉ (split newline (tail ++ chunk)).2 ++ stale := by
    rw [List.mem_append,not_or]
    exact ⟨(split_free newline _).2,clear⟩
  have parts := split_append newline (tail ++ chunk) stale
  simp only [split_open newline _ unclosed,List.append_nil] at parts
  rw [parts] at events after left
  dsimp only at events after left
  have total := congrArg List.length (split_wire newline (tail ++ chunk))
  rw [List.length_append,List.length_append] at total
  have last : (drainLines received).2.usedBuf = (split newline (tail ++ chunk)).2.length := by
    rw [left,used]
    omega
  have kept : (drainLines received).2.dropLong = (drainLines received).2 := by
    rw [Input.dropLong,if_neg (by rw [last]; unfold bufLen; omega)]
  rw [kept,after,List.append_assoc,List.take_left' rfl]
  exact ⟨events,last,rfl⟩

theorem drain_stale (received : Input) (tail chunk stale rest : List Byte) (nulFree : 0 ∉ tail ++ chunk ++ stale)
    (buf : received.buf = (tail ++ chunk ++ stale) ++ 0::rest) (shows : newline ∈ stale) :
    (split newline (tail ++ chunk)).1.length < (drainLines received).1.length := by
  obtain ⟨events,_⟩ := drain_visible received _ _ nulFree buf
  simp only [events,List.length_map,split_count,List.count_append]
  have counted := List.count_pos_iff.mpr shows
  omega

/-- The open rest, the bytes that are read and the visible ones behind them hold no NUL. -/
theorem read_nul_free (stream read chunk left block : List Byte) (legal : Legal stream)
    (cut : stream = read ++ chunk ++ left) : 0 ∉ (split newline read).2 ++ chunk ++ visible block := by
  have fresh : 0 ∉ read ++ chunk := fun zero =>
    legal.nulFree (by rw [cut]; exact List.mem_append_left _ zero)
  simp only [List.mem_append,not_or] at fresh ⊢
  have inside : (split newline read).2 ⊆ read := by
    conv_rhs => rw [← split_wire newline read]
    exact List.subset_append_right _ _
  exact ⟨⟨fun zero => fresh.1 (inside zero),fresh.2⟩,visible_free _⟩

theorem read_framed (stream : List Byte) (reader : Reader) (bits count : Nat) (legal : Legal stream)
    (framed : Framed stream reader) (readable : flagged bits pollIn = true) :
    ∃ after, reader.poll (.revents bits) count = .ok after ∧
      (Framed stream after ↔ Clear reader (.revents bits) count) := by
  obtain ⟨read,cut,calls,low,high,front⟩ := framed
  have asked := space_left reader.input.usedBuf low high
  have fits : reader.input.usedBuf.toNat + (reader.chunk count).length ≤ bufLen := by
    rw [Reader.chunk,List.length_take,asked]
    omega
  obtain ⟨received,rest,deliver,used,buf⟩ := deliver_visible _ _ _ low front fits
  have whole : reader.chunk count ++ reader.wire.drop (min count (size (bufLen - reader.input.usedBuf))) =
      reader.wire := List.take_append_drop _ _
  have split_read := split_append newline read (reader.chunk count)
  have tail : ((split newline read).2.length : Int) = reader.input.usedBuf := by
    rw [← front,List.length_take_of_le (by rw [reader.input.sized]; unfold bufLen at high; omega)]
    omega
  have recut : stream = (read ++ reader.chunk count) ++
      reader.wire.drop (min count (size (bufLen - reader.input.usedBuf))) := by
    rw [List.append_assoc,whole,cut]
  have nulFree := read_nul_free stream read (reader.chunk count) _
    (reader.input.buf.drop (reader.input.usedBuf.toNat + (reader.chunk count).length)) legal recut
  refine ⟨⟨(drainLines received).2.dropLong,
    reader.wire.drop (min count (size (bufLen - reader.input.usedBuf))),
    reader.calls ++ (drainLines received).1⟩,?_,?_,?_⟩
  · simp only [Reader.poll,inputPoll,readable,networkRead,bind,Except.bind,if_true]
    rw [Reader.chunk] at deliver
    rw [deliver]
    rfl
  · rintro ⟨read',cut',calls',_⟩ other same _ shows
    have same_read : read' = read ++ reader.chunk count :=
      List.append_cancel_right (cut'.symm.trans recut)
    have more := drain_stale received _ _ _ rest nulFree buf shows
    have count := congrArg List.length calls'
    rw [same_read,split_read] at count
    simp only [calls,List.length_append,List.length_map] at count
    omega
  · intro clear
    have short := legal.tail recut
    rw [split_read] at short
    dsimp only at short
    obtain ⟨events,left,kept⟩ := drain_clear received _ _ _ rest nulFree buf (by rw [used,tail])
      short (clear bits rfl readable)
    refine ⟨read ++ reader.chunk count,recut,?_,?_⟩
    · rw [split_read,events,calls,List.map_append]
    · dsimp only
      rw [split_read,left]
      refine ⟨by omega,by unfold bufLen; omega,?_⟩
      rw [Int.toNat_natCast]
      exact kept

theorem poll_framed (stream : List Byte) (reader : Reader) (poll : Poll) (count : Nat) (legal : Legal stream)
    (framed : Framed stream reader) :
    ∃ after, reader.poll poll count = .ok after ∧ (Framed stream after ↔ Clear reader poll count) := by
  cases poll with
  | failed errno =>
    refine ⟨reader,?_,fun _ => fun bits same => (nomatch same),fun _ => framed⟩
    simp [Reader.poll,inputPoll,bind,Except.bind,pure,Except.pure]
  | revents bits =>
    by_cases readable : flagged bits pollIn = true
    · exact read_framed stream reader bits count legal framed readable
    · refine ⟨reader,?_,fun _ => ?_,fun _ => framed⟩
      · simp [Reader.poll,inputPoll,readable,bind,Except.bind,pure,Except.pure]
      · intro other same ready
        cases same
        exact absurd ready readable

theorem visible_init (n : Nat) : visible (Input.init.buf.drop n) = [] := by
  simp only [Input.init,List.drop_replicate]
  cases 4096 - n with
  | zero => rfl
  | succ left => simp [visible,List.replicate_succ]

theorem clear_start (stream : List Byte) (poll : Poll) (count : Nat) : Clear (.start stream) poll count := by
  intro bits _ _
  simp only [Reader.start]
  rw [visible_init]
  exact List.not_mem_nil

/-- In a run without stale newlines every state is framed, and a poll keeps it
so exactly when it shows no stale newline either. -/
theorem framed_iff_clear (stream : List Byte) (reader : Reader) (legal : Legal stream)
    (run : Run stream Clear reader) :
    Framed stream reader ∧ ∀ poll count,
      (∃ after, reader.poll poll count = .ok after ∧ Framed stream after) ↔ Clear reader poll count := by
  have framed : Framed stream reader := by
    induction run with
    | start => exact framed_start stream
    | poll reader after poll count run met step ih =>
      obtain ⟨next,polled,kept⟩ := poll_framed stream reader poll count legal ih
      obtain rfl := Except.ok.inj (polled.symm.trans step)
      exact kept.mpr met
  refine ⟨framed,?_⟩
  intro poll count
  obtain ⟨next,polled,kept⟩ := poll_framed stream reader poll count legal framed
  constructor
  · rintro ⟨after,step,ok⟩
    obtain rfl := Except.ok.inj (polled.symm.trans step)
    exact kept.mp ok
  · intro clear
    exact ⟨next,polled,kept.mpr clear⟩

theorem framed_iff_clear_line : ∃ after, (Reader.start [65,10]).poll (.revents pollIn) 2 = .ok after ∧
    Framed [65,10] after := by
  have legal : Legal [65,10] := ⟨by decide,by decide,by decide⟩
  obtain ⟨_,exact⟩ := framed_iff_clear [65,10] (.start [65,10]) legal .start
  exact (exact _ _).mpr (clear_start _ _ _)

/-- Two lines that end together at the end of the buffer, and an open one as long as the first. -/
structure Stale (first second : List Byte) : Prop where
  length : first.length = 4093 ∧ second.length = 4093
  nulFree : 0 ∉ first ∧ 0 ∉ second
  unclosed : newline ∉ first ∧ newline ∉ second

def staleStream (first second : List Byte) : List Byte := first ++ newline::newline::second

theorem stale_split (first second : List Byte) (stale : Stale first second) :
    split newline (staleStream first second) = ([first,[]],second) := by
  have blank := split_segment newline [] second List.not_mem_nil
  rw [List.nil_append] at blank
  rw [staleStream,split_segment newline _ _ stale.unclosed.1,blank,split_open newline _ stale.unclosed.2]

theorem stale_legal (first second : List Byte) (stale : Stale first second) : Legal (staleStream first second) := by
  have length := stale.length
  have nulFree := stale.nulFree
  refine ⟨?_,?_,?_⟩
  · rw [staleStream,List.mem_append,List.mem_cons,List.mem_cons,not_or,not_or,not_or]
    exact ⟨nulFree.1,by decide,by decide,nulFree.2⟩
  · rw [stale_split first second stale]
    intro line member
    rcases List.mem_pair.mp member with rfl | rfl
    · omega
    · exact Nat.zero_le _
  · rw [stale_split first second stale]
    dsimp only
    omega

theorem drain_stale_lines (received : Input) (first : List Byte) (length : first.length = 4093)
    (nulFree : 0 ∉ first) (unclosed : newline ∉ first) (buf : received.buf = first ++ newline::newline::[0])
    (used : received.usedBuf = 4095) : (drainLines received).2.usedBuf = 0 ∧
      ∃ rest, (drainLines received).2.buf.drop 4093 = newline::rest := by
  have one : strchr newline received.buf = some first.length := by
    rw [buf,strchr_here newline first _ nulFree unclosed]
  have middle := takeLine_buf received first _ (strchr_inside _ _ _ one) buf
  have left : (received.takeLine first.length (strchr_inside _ _ _ one)).usedBuf = 1 := by
    simp only [Input.takeLine,used,length]
    rfl
  have two : strchr newline (received.takeLine first.length (strchr_inside _ _ _ one)).buf =
      some ([] : List Byte).length := by
    rw [middle]
    rfl
  have last := takeLine_buf _ [] _ (strchr_inside _ _ _ two) middle
  have three : strchr newline ((received.takeLine first.length (strchr_inside _ _ _ one)).takeLine
      ([] : List Byte).length (strchr_inside _ _ _ two)).buf = none := by
    rw [last]
    rfl
  rw [drain_line _ _ one,drain_line _ _ two,drain_none _ three]
  constructor
  · simp only [Input.takeLine] at left ⊢
    rw [left]
    rfl
  · have stays : (first ++ 0::newline::[0]).drop (4096 - (first.length + 1)) = first.drop 2 ++ 0::newline::[0] := by
      rw [length,List.drop_append_of_le_length (by rw [length]; decide)]
    have tail : (first.drop 2).length = 4091 := by rw [List.length_drop,length]
    rw [stays] at last
    generalize List.drop (4096 - (([] : List Byte).length + 1)) _ = shadow at last
    have skip (more : List Byte) : (([0] ++ first.drop 2 ++ [0]) ++ more).drop 4093 = more :=
      List.drop_left' (by simp only [List.length_append,tail,List.length_singleton])
    refine ⟨0::shadow,?_⟩
    rw [last,← skip (newline::0::shadow)]
    congr 1
    change 0::(first.drop 2 ++ 0::newline::[0]) ++ shadow = 0::(first.drop 2 ++ [0]) ++ newline::0::shadow
    rw [List.cons_append,List.cons_append,List.append_assoc,List.append_assoc]
    rfl

theorem stale_newline (first second : List Byte) (stale : Stale first second) :
    ∃ reader, (Reader.start (staleStream first second)).poll (.revents pollIn) 4095 = .ok reader ∧
      ¬Clear reader (.revents pollIn) 4093 := by
  have length := stale.length
  have read : (staleStream first second).take 4095 = first ++ [newline,newline] := by
    rw [staleStream,List.take_append,List.take_of_length_le (by omega),length.1]
    rfl
  have asked : size (bufLen - (Reader.start (staleStream first second)).input.usedBuf) = 4095 := rfl
  obtain ⟨received,rest,deliver,used,buf⟩ := deliver_visible Input.init [] (first ++ [newline,newline])
    (Int.le_refl 0) rfl (by rw [List.length_append,length.1]; exact Nat.le_refl _)
  rw [visible_init,List.nil_append,List.append_nil] at buf
  have none : rest = [] := by
    have total := received.sized
    rw [buf] at total
    simp only [List.length_append,List.length_cons,List.length_nil,length.1] at total
    exact List.length_eq_zero_iff.mp (by omega)
  rw [none,List.append_assoc] at buf
  have full : received.usedBuf = 4095 := by
    rw [used,List.length_append,length.1]
    rfl
  obtain ⟨empty,rest,old⟩ := drain_stale_lines received first length.1 stale.nulFree.1 stale.unclosed.1 buf full
  have kept : (drainLines received).2.dropLong = (drainLines received).2 := by
    rw [Input.dropLong,if_neg (by rw [empty]; decide)]
  refine ⟨⟨(drainLines received).2,second,(drainLines received).1⟩,?_,?_⟩
  · have left : (staleStream first second).drop 4095 = second := by
      rw [staleStream,List.append_cons,List.append_cons,List.drop_left' (by simp [length.1])]
    have polled : inputPoll (Reader.start (staleStream first second)).input (staleStream first second)
        (.revents pollIn) (.upto 4095) = .ok (true,(drainLines received).2,second,(drainLines received).1) := by
      have ready : flagged pollIn pollIn = true := rfl
      simp only [inputPoll,ready,if_true,networkRead,asked,Nat.min_self,read,left]
      simp only [Reader.start,deliver,bind,Except.bind,kept]
      rfl
    have wire : (Reader.start (staleStream first second)).wire = staleStream first second := rfl
    simp only [Reader.poll,wire,polled,bind,Except.bind]
    rfl
  · intro clear
    have shows := clear pollIn rfl rfl
    have chunk : (Reader.mk (drainLines received).2 second (drainLines received).1).chunk 4093 = second := by
      rw [Reader.chunk,empty,List.take_of_length_le]
      rw [length.2]
      decide
    rw [chunk,empty,length.2] at shows
    change newline ∉ visible ((drainLines received).2.buf.drop 4093) at shows
    rw [old] at shows
    apply shows
    simp [visible,newline]

theorem stale_lines : Stale (List.replicate 4093 65) (List.replicate 4093 66) := by
  refine ⟨⟨List.length_replicate,List.length_replicate⟩,?_,?_⟩
  all_goals
    constructor
  all_goals
    intro member
    exact absurd (List.eq_of_mem_replicate member) (by decide)

/-- Read as 4095 and then 4093 bytes, the open line of 4093 bytes is handed over. -/
theorem stale_not_framed : Legal (staleStream (List.replicate 4093 65) (List.replicate 4093 66)) ∧
    ∃ reader, Run (staleStream (List.replicate 4093 65) (List.replicate 4093 66)) (fun _ _ _ => True) reader ∧
      ¬Framed (staleStream (List.replicate 4093 65) (List.replicate 4093 66)) reader := by
  have legal := stale_legal _ _ stale_lines
  obtain ⟨reader,step,shows⟩ := stale_newline _ _ stale_lines
  have framed : Framed (staleStream (List.replicate 4093 65) (List.replicate 4093 66)) reader := by
    obtain ⟨next,polled,kept⟩ := poll_framed _ _ (.revents pollIn) 4095 legal (framed_start _)
    obtain rfl := Except.ok.inj (polled.symm.trans step)
    exact kept.mpr (clear_start _ _ _)
  obtain ⟨after,polled,kept⟩ := poll_framed _ _ (.revents pollIn) 4093 legal framed
  refine ⟨legal,after,?_,fun ok => shows (kept.mp ok)⟩
  exact .poll _ _ _ _ (.poll _ _ _ _ .start trivial step) trivial polled

end Craftsman.LineFraming
