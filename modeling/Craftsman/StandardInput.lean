import Craftsman.Network
import Craftsman.Stream.Delimited

/-! Standard input. The lines are searched for as in a C string that starts at
the front of the buffer, so the bytes behind the used ones count until the first NUL. -/
namespace Craftsman.StandardInput
open Craftsman.Memory Craftsman.Network
open Craftsman.Stream.Delimited

def bufLen : Nat := 4095

theorem space_left (usedBuf : Int) (low : 0 ≤ usedBuf) (high : usedBuf ≤ bufLen) :
    size (bufLen - usedBuf) = bufLen - usedBuf.toNat := by
  rw [size_of_bounds (by omega) (by unfold bufLen; omega)]
  omega

def newline : Byte := 10

/-- The last byte of the buffer is NUL from the start and is never written. -/
structure Input where
  buf : List Byte
  usedBuf : Int
  sized : buf.length = 4096
  terminated : buf[bufLen]? = some 0

def Input.init : Input where
  buf := List.replicate 4096 0
  usedBuf := 0
  sized := blank_length
  terminated := by rw [List.getElem?_replicate]; rfl

def strchr (c : Byte) : List Byte → Option Nat
  | [] => none
  | b::rest => if b = c then some 0 else if b = 0 then none else (strchr c rest).map (· + 1)

theorem strchr_found (c : Byte) (block : List Byte) (k : Nat) (found : strchr c block = some k) :
    ∃ line rest, block = line ++ c::rest ∧ line.length = k ∧ 0 ∉ line ∧ c ∉ line := by
  induction block generalizing k with
  | nil => cases found
  | cons b block ih =>
    unfold strchr at found
    split at found
    · rename_i same
      cases found
      exact ⟨[],block,by rw [same]; rfl,rfl,List.not_mem_nil,List.not_mem_nil⟩
    · rename_i other
      split at found
      · cases found
      · rename_i nonzero
        obtain ⟨later,there,rfl⟩ := Option.map_eq_some_iff.mp found
        obtain ⟨line,rest,rfl,rfl,nulFree,unclosed⟩ := ih later there
        exact ⟨b::line,rest,rfl,rfl,by simp [nulFree,Ne.symm nonzero],by simp [unclosed,Ne.symm other]⟩

theorem strchr_here (c : Byte) (line rest : List Byte) (nulFree : 0 ∉ line) (unclosed : c ∉ line) :
    strchr c (line ++ c::rest) = some line.length := by
  induction line with
  | nil => simp [strchr]
  | cons b line ih =>
    rw [List.mem_cons,not_or] at nulFree unclosed
    rw [List.cons_append,strchr,if_neg (Ne.symm unclosed.1),if_neg (Ne.symm nulFree.1),ih nulFree.2 unclosed.2]
    rfl

theorem strchr_absent (c : Byte) (text rest : List Byte) (nonzero : c ≠ 0) (nulFree : 0 ∉ text)
    (unclosed : c ∉ text) : strchr c (text ++ 0::rest) = none := by
  induction text with
  | nil => simp [strchr,Ne.symm nonzero]
  | cons b text ih =>
    rw [List.mem_cons,not_or] at nulFree unclosed
    rw [List.cons_append,strchr,if_neg (Ne.symm unclosed.1),if_neg (Ne.symm nulFree.1),ih nulFree.2 unclosed.2]
    rfl

theorem strchr_inside (c : Byte) (block : List Byte) (k : Nat) (found : strchr c block = some k) :
    k < block.length := by
  obtain ⟨line,rest,rfl,rfl,_,_⟩ := strchr_found c block k found
  simp

/-- A call of the handler: the length it is told and the bytes it is shown. -/
abbrev Event := Nat × List Byte

/-- The line that ends at `k` cut off, and the rest of the whole buffer moved to the front. -/
def cutLine (buf : List Byte) (k : Nat) : List Byte := moveDown (buf.set k 0) (k + 1) (4096 - (k + 1))

theorem cutLine_sized (buf : List Byte) (k : Nat) (sized : buf.length = 4096) (inside : k < buf.length) :
    (cutLine buf k).length = 4096 := by
  rw [sized] at inside
  rw [cutLine,moveDown_length _ _ _ (by rw [List.length_set,sized]; omega),List.length_set,sized]

theorem cutLine_terminated (buf : List Byte) (k : Nat) (sized : buf.length = 4096) (terminated : buf[bufLen]? = some 0)
    (inside : k < buf.length) : (cutLine buf k)[bufLen]? = some 0 := by
  rw [sized] at inside
  have last : (buf.set k 0)[bufLen]? = some 0 := by
    rw [List.getElem?_set]
    split
    · rw [if_pos (by rw [sized]; exact inside)]
    · exact terminated
  have front : ((List.drop (k+1) (buf.set k 0)).take (4096 - (k+1))).length = 4096 - (k+1) := by
    rw [List.length_take,List.length_drop,List.length_set,sized]
    omega
  rw [cutLine,moveDown,List.getElem?_append_right (by rw [front]; unfold bufLen; omega),front,List.getElem?_drop]
  rw [← last]
  congr 1
  unfold bufLen
  omega

def Input.takeLine (input : Input) (k : Nat) (inside : k < input.buf.length) : Input where
  buf := cutLine input.buf k
  usedBuf := input.usedBuf - (k + 1 : Nat)
  sized := cutLine_sized input.buf k input.sized inside
  terminated := cutLine_terminated input.buf k input.sized input.terminated inside

def visible (block : List Byte) : List Byte := block.takeWhile (· ≠ 0)

theorem visible_text (text rest : List Byte) (nulFree : 0 ∉ text) : visible (text ++ 0::rest) = text := by
  induction text with
  | nil => simp [visible]
  | cons b text ih =>
    rw [List.mem_cons,not_or] at nulFree
    have tail := ih nulFree.2
    simp only [visible] at tail ⊢
    rw [List.cons_append,List.takeWhile_cons_of_pos (by simpa using Ne.symm nulFree.1),tail]

theorem visible_free (block : List Byte) : 0 ∉ visible block := by
  intro member
  have := List.mem_takeWhile_imp member
  simp at this

theorem visible_split (block : List Byte) (closed : 0 ∈ block) : ∃ rest, block = visible block ++ 0::rest := by
  obtain ⟨text,rest,rfl,nulFree⟩ := List.eq_append_cons_of_mem closed
  exact ⟨rest,by rw [visible_text _ _ nulFree]⟩

theorem takeLine_buf (input : Input) (line rest : List Byte) (inside : line.length < input.buf.length)
    (same : input.buf = line ++ newline::rest) :
    (input.takeLine line.length inside).buf = rest ++ (line ++ 0::rest).drop (4096 - (line.length + 1)) := by
  have total := input.sized
  rw [same,List.length_append,List.length_cons] at total
  simp only [Input.takeLine,cutLine,moveDown]
  rw [same,List.set_append_right _ _ (Nat.le_refl _),Nat.sub_self,List.set_cons_zero]
  have behind : (line ++ 0::rest).drop (line.length + 1) = rest := by
    rw [List.append_cons,List.drop_left' (by simp)]
  rw [behind,List.take_of_length_le (by omega)]

theorem Input.closed (input : Input) (line rest : List Byte) (same : input.buf = line ++ newline::rest) : 0 ∈ rest := by
  have last := input.terminated
  have total := input.sized
  rw [same,List.length_append,List.length_cons] at total
  rcases Nat.lt_or_ge line.length bufLen with inside | atEnd
  · rw [same,List.append_cons,List.getElem?_append_right (by rw [List.length_append]; exact inside)] at last
    exact List.mem_of_getElem? last
  · have full : line.length = bufLen := by unfold bufLen at *; omega
    rw [same,List.getElem?_append_right (Nat.le_of_eq full),full,Nat.sub_self] at last
    exact absurd (Option.some.inj last) (by decide)

theorem takeLine_shorter (input : Input) (k : Nat) (found : strchr newline input.buf = some k) :
    (visible (input.takeLine k (strchr_inside _ _ _ found)).buf).length < (visible input.buf).length := by
  obtain ⟨line,rest,same,rfl,nulFree,_⟩ := strchr_found _ _ _ found
  have after := takeLine_buf input line rest (strchr_inside _ _ _ found) same
  obtain ⟨back,cut⟩ := visible_split rest (input.closed line rest same)
  have free := visible_free rest
  have before : visible (line ++ newline::rest) = line ++ newline::visible rest := by
    conv_lhs => rw [cut]
    have whole := visible_text (line ++ newline::visible rest) back (by simp [nulFree,free,newline])
    simpa using whole
  rw [after,same,before,cut,List.append_assoc,List.cons_append,visible_text _ _ free,visible_text _ _ free]
  simp only [List.length_append,List.length_cons]
  omega

/-- The lines in the buffer, handed to the handler one after the other. Each
takes its newline out of the visible string. -/
def drainLines (input : Input) : List Event × Input :=
  match _found : strchr newline input.buf with
  | none => ([],input)
  | some k =>
    let (events,last) := drainLines (input.takeLine k (strchr_inside _ _ _ _found))
    ((k,input.buf.take k)::events,last)
termination_by (visible input.buf).length
decreasing_by exact takeLine_shorter _ _ _found

theorem drain_none (input : Input) (absent : strchr newline input.buf = none) : drainLines input = ([],input) := by
  unfold drainLines
  split <;> simp_all

theorem drain_line (input : Input) (k : Nat) (found : strchr newline input.buf = some k) :
    drainLines input = ((k,input.buf.take k)::(drainLines (input.takeLine k (strchr_inside _ _ _ found))).1,
      (drainLines (input.takeLine k (strchr_inside _ _ _ found))).2) := by
  conv_lhs => unfold drainLines
  split
  · simp_all
  · rename_i other here
    rw [found] at here
    cases here
    rfl

def Input.deliver (input : Input) (bytes : List Byte) : Except Stop Input :=
  if bytes = [] then .ok input
  else if inside : 0 ≤ input.usedBuf ∧ input.usedBuf.toNat + bytes.length ≤ bufLen then
    .ok {
      buf := overwrite input.buf input.usedBuf.toNat bytes
      usedBuf := input.usedBuf + bytes.length
      sized := (overwrite_length _ _ _ (by rw [input.sized]; exact Nat.le_succ_of_le inside.2)).trans input.sized
      terminated := by
        have front : (input.buf.take input.usedBuf.toNat ++ bytes).length = input.usedBuf.toNat + bytes.length := by
          rw [List.length_append,List.length_take_of_le (by rw [input.sized]; unfold bufLen at inside; omega)]
        rw [overwrite,List.getElem?_append_right (by rw [front]; exact inside.2),front,List.getElem?_drop,
          Nat.add_sub_cancel' inside.2]
        exact input.terminated}
  else .error .fault

def Input.dropLong (input : Input) : Input :=
  if input.usedBuf = bufLen then {input with usedBuf := 0} else input

def inputPoll (input : Input) (wire : List Byte) (poll : Poll) (read : Read) :
    Except Stop (Bool × Input × List Byte × List Event) :=
  match poll with
  | .failed errno => .ok (errno == eintr,input,wire,[])
  | .revents bits =>
    if flagged bits pollIn then
      match networkRead wire (size (bufLen - input.usedBuf)) read with
      | (none,wire) =>
        -- The failure's -1 is added to the used bytes before the search.
        let (events,drained) := drainLines {input with usedBuf := input.usedBuf - 1}
        .ok (true,drained.dropLong,wire,events)
      | (some bytes,wire) => do
        let received ← input.deliver bytes
        let (events,drained) := drainLines received
        return (true,drained.dropLong,wire,events)
    else .ok (true,input,wire,[])

def inputShutdown (input : Input) : Input := {input with usedBuf := 0}

theorem drain_visible (input : Input) (text rest : List Byte) (nulFree : 0 ∉ text)
    (same : input.buf = text ++ 0::rest) :
    (drainLines input).1 = (split newline text).1.map (fun line => (line.length,line)) ∧
      (∃ later, (drainLines input).2.buf = (split newline text).2 ++ 0::later) ∧
      (drainLines input).2.usedBuf = input.usedBuf - (encode newline (split newline text).1).length := by
  induction input using drainLines.induct generalizing text rest with
  | case1 input absent =>
    have unclosed : newline ∉ text := by
      intro member
      obtain ⟨line,more,rfl,unclosed⟩ := List.eq_append_cons_of_mem member
      rw [same,List.append_assoc,List.cons_append,
        strchr_here _ _ _ (fun zero => nulFree (List.mem_append_left _ zero)) unclosed] at absent
      cases absent
    rw [drain_none _ absent,split_open _ _ unclosed]
    exact ⟨rfl,⟨rest,same⟩,by simp⟩
  | case2 input k found _ _ _ ih =>
    have member : newline ∈ text := by
      by_contra unclosed
      rw [same,strchr_absent _ _ _ (by decide) nulFree unclosed] at found
      cases found
    obtain ⟨line,more,rfl,unclosed⟩ := List.eq_append_cons_of_mem member
    rw [List.append_assoc,List.cons_append] at same
    have lineFree : 0 ∉ line := fun zero => nulFree (List.mem_append_left _ zero)
    have moreFree : 0 ∉ more := fun zero => nulFree (List.mem_append_right _ (List.mem_cons_of_mem _ zero))
    have here := found
    rw [same,strchr_here _ _ _ lineFree unclosed] at here
    obtain rfl := Option.some.inj here
    have after := takeLine_buf input line _ (strchr_inside _ _ _ found) same
    rw [List.append_assoc,List.cons_append] at after
    obtain ⟨events,⟨later,buf⟩,used⟩ := ih more _ moreFree after
    have shown : input.buf.take line.length = line := by rw [same,List.take_left' rfl]
    rw [drain_line _ _ found,split_segment _ _ _ unclosed,events,shown]
    refine ⟨rfl,⟨later,buf⟩,?_⟩
    · rw [used,encode_cons,List.length_append,List.length_cons]
      simp only [Input.takeLine]
      omega

theorem drain_events (input : Input) : ∀ event ∈ (drainLines input).1, event.1 = event.2.length ∧ 0 ∉ event.2 := by
  induction input using drainLines.induct with
  | case1 input absent =>
    rw [drain_none _ absent]
    simp
  | case2 input k found _ _ _ ih =>
    intro event member
    rw [drain_line _ _ found,List.mem_cons] at member
    rcases member with rfl | member
    · obtain ⟨line,rest,same,rfl,nulFree,_⟩ := strchr_found _ _ _ found
      dsimp only
      rw [same,List.take_left' rfl]
      exact ⟨rfl,nulFree⟩
    · exact ih event member

theorem poll_events (input later : Input) (wire left : List Byte) (poll : Poll) (read : Read) (up : Bool)
    (events : List Event) (ok : inputPoll input wire poll read = .ok (up,later,left,events)) :
    ∀ event ∈ events, event.1 = event.2.length ∧ 0 ∉ event.2 := by
  unfold inputPoll at ok
  split at ok
  · cases ok
    simp
  · split at ok
    · split at ok
      · cases ok
        exact drain_events _
      · obtain ⟨received,_,ok⟩ := (bind_ok _ _ _).mp ok
        cases ok
        exact drain_events _
    · cases ok
      simp

end Craftsman.StandardInput
