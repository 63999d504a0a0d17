import Craftsman.Network
import Mathlib.Data.List.Forall2
import Mathlib.Logic.Function.Basic

/-! The file watch. The kernel keeps a queue of events for each watched directory; a
read takes the first of them, as many as fit whole, and the loop over the buffer
goes from one to the next by the length of its name field. -/
namespace Craftsman.Notify
open Craftsman.Memory Craftsman.Network

/-- An event as the kernel writes it: a name, if there is one, is closed by NULs. -/
structure InotifyEvent where
  wd : UInt32
  mask : UInt32
  cookie : UInt32
  name : List Byte
  closed : name = [] ∨ 0 ∈ name
  fits : 16 + name.length ≤ 4096

def InotifyEvent.bytes (event : InotifyEvent) : List Byte :=
  le32 event.wd.toNat ++ le32 event.mask.toNat ++ le32 event.cookie.toNat ++ le32 event.name.length ++ event.name

def InotifyEvent.size (event : InotifyEvent) : Nat := 16 + event.name.length

/-- The name without the NULs behind it. -/
def InotifyEvent.text (event : InotifyEvent) : List Byte := event.name.takeWhile (· ≠ 0)

@[simp] theorem bytes_length (event : InotifyEvent) : event.bytes.length = event.size := by
  simp [InotifyEvent.bytes,InotifyEvent.size,le32]
  omega

def flat (events : List InotifyEvent) : List Byte := events.flatMap InotifyEvent.bytes

@[simp] theorem flat_cons (event : InotifyEvent) (events : List InotifyEvent) :
    flat (event::events) = event.bytes ++ flat events := rfl

@[simp] theorem flat_append (first second : List InotifyEvent) : flat (first ++ second) = flat first ++ flat second := by
  simp [flat]

/-- A `uint32_t` in memory. -/
def readU32 (memory : List Byte) (offset : Nat) : Nat :=
  (memory[offset]?.getD 0).toNat + 256 * (memory[offset + 1]?.getD 0).toNat +
    65536 * (memory[offset + 2]?.getD 0).toNat + 16777216 * (memory[offset + 3]?.getD 0).toNat

theorem readU32_le32 (front rest : List Byte) (n : Nat) (small : n < 2^32) :
    readU32 (front ++ (le32 n ++ rest)) front.length = n := by
  have skip (k : Nat) : (front ++ (le32 n ++ rest))[front.length + k]? = (le32 n ++ rest)[k]? := by
    rw [List.getElem?_append_right (Nat.le_add_right _ _),Nat.add_sub_cancel_left]
  have here := skip 0
  rw [Nat.add_zero] at here
  rw [readU32,here,skip 1,skip 2,skip 3]
  simp only [le32,List.cons_append,List.nil_append,List.getElem?_cons_zero,List.getElem?_cons_succ,Option.getD_some,
    UInt8.toNat_ofNat']
  omega

/-- The loop of `notify_poll` over the buffer: the memory that each call of the handler is shown. -/
def eventsFrom (buf : List Byte) (event eventEnd : Nat) : Except Stop (List (List Byte)) :=
  if event < eventEnd then
    if event + 16 ≤ buf.length then do
      let later ← eventsFrom buf (event + 16 + readU32 buf (event + 12)) eventEnd
      return buf.drop event::later
    else .error .fault
  else .ok []
termination_by eventEnd - event
decreasing_by omega

/-- What a handler finds behind the pointer it is handed: the fields, and the name field. -/
def fieldsAt (memory : List Byte) : Nat × Nat × Nat × List Byte :=
  (readU32 memory 0,readU32 memory 4,readU32 memory 8,(memory.drop 16).take (readU32 memory 12))

/-- The name as `printf` and `strstr` read it. -/
def nameAt (memory : List Byte) : Except Stop (List Byte) := cstring ((memory.drop 16).map some)

def InotifyEvent.fields (event : InotifyEvent) : Nat × Nat × Nat × List Byte :=
  (event.wd.toNat,event.mask.toNat,event.cookie.toNat,event.name)

/-- The calls of the handler, and the memory they are shown. -/
abbrev Calls := List (Nat × List Byte)

/-- What the kernel answers to one read: an error, or the first events of the queue. -/
inductive NotifyRead where
  | failed (errno : Nat)
  | events (count : Nat)

/-- How many events of a queue fit whole. -/
def fitting : Nat → List InotifyEvent → Nat
  | _,[] => 0
  | n,event::queue => if event.size ≤ n then fitting (n - event.size) queue + 1 else 0

def notifyRead (queue : List InotifyEvent) (n : Nat) : NotifyRead → Option (List InotifyEvent) × List InotifyEvent
  | .failed _ => (none,queue)
  | .events count => (some (queue.take (min count (fitting n queue))),queue.drop (min count (fitting n queue)))

def NotifyRead.errno : NotifyRead → Nat
  | .failed errno => errno
  | .events _ => 0

/-- The array of descriptors with the number in use, the watches, and the last error. -/
structure Watch where
  nfds : Nat
  fds : List Int
  wd : List Int
  error : Nat
  buf : List Byte
  sized : buf.length = 4096

def Watch.boot : Watch where
  nfds := 0
  fds := []
  wd := []
  error := 0
  buf := List.replicate 4096 0
  sized := blank_length

abbrev Queues := Nat → List InotifyEvent

/-- What the kernel answers to `poll`: an error, or the flags of each descriptor. -/
inductive Ready where
  | failed (errno : Nat)
  | revents (bits : Nat → Nat)

def Watch.fill (watch : Watch) (bytes : List Byte) : Except Stop Watch :=
  if inside : bytes.length ≤ watch.buf.length then
    .ok {watch with
      buf := overwrite watch.buf 0 bytes
      sized := (overwrite_length _ _ _ (by omega)).trans watch.sized}
  else .error .fault

/-- The loop over the descriptors, from the one at `i`. -/
def pollFrom (bits : Nat → Nat) (reads : Nat → NotifyRead) :
    Nat → Nat → Watch → Queues → Except Stop (Bool × Watch × Queues × Calls)
  | _,0,watch,queues => .ok (true,watch,queues,[])
  | i,left+1,watch,queues =>
    if !flagged (bits i) pollIn then pollFrom bits reads (i+1) left watch queues
    else
      match notifyRead (queues i) 4096 (reads i) with
      | (none,_) =>
        if (reads i).errno = eagain then pollFrom bits reads (i+1) left watch queues
        else .ok (false,{watch with error := 7},queues,[])
      | (some events,rest) => do
        let filled ← watch.fill (flat events)
        let shown ← eventsFrom filled.buf 0 (flat events).length
        let (result,last,queues,calls) ← pollFrom bits reads (i+1) left filled (Function.update queues i rest)
        return (result,last,queues,shown.map (fun memory => (i,memory)) ++ calls)

def notifyPoll (watch : Watch) (queues : Queues) (ready : Ready) (reads : Nat → NotifyRead) :
    Except Stop (Bool × Watch × Queues × Calls) :=
  match ready with
  | .failed errno =>
    if errno = eintr then .ok (true,watch,queues,[]) else .ok (false,{watch with error := 6},queues,[])
  | .revents bits => do
    let (result,last,queues,calls) ← pollFrom bits reads 0 watch.nfds watch queues
    return (result,if result then {last with error := 0} else last,queues,calls)

section Buffer

/-- The memory from each event on, with `stale` behind the last. -/
def views (stale : List Byte) : List InotifyEvent → List (List Byte)
  | [] => []
  | event::events => (event.bytes ++ (flat events ++ stale))::views stale events

theorem small_name (event : InotifyEvent) : event.name.length < 2^32 := by
  have fits := event.fits
  omega

theorem length_at (event : InotifyEvent) (front rest : List Byte) :
    readU32 (front ++ (event.bytes ++ rest)) (front.length + 12) = event.name.length := by
  have found := readU32_le32 (front ++ (le32 event.wd.toNat ++ le32 event.mask.toNat ++ le32 event.cookie.toNat))
    (event.name ++ rest) event.name.length (small_name event)
  have place : (front ++ (le32 event.wd.toNat ++ le32 event.mask.toNat ++ le32 event.cookie.toNat)).length =
      front.length + 12 := by simp [le32]
  rw [place] at found
  rw [← found]
  simp [InotifyEvent.bytes]

/-- Events behind each other are gone through one by one, whatever the buffer holds behind them. -/
theorem eventsFrom_views (events : List InotifyEvent) (front stale : List Byte) :
    eventsFrom (front ++ (flat events ++ stale)) front.length (front.length + (flat events).length) =
      .ok (views stale events) := by
  induction events generalizing front with
  | nil =>
    rw [eventsFrom,if_neg (by simp [flat])]
    rfl
  | cons event events ih =>
    have rest := ih (front ++ event.bytes)
    have size : event.size = 16 + event.name.length := rfl
    have next : front.length + 16 + readU32 (front ++ (flat (event::events) ++ stale)) (front.length + 12) =
        (front ++ event.bytes).length := by
      rw [flat_cons,List.append_assoc,length_at,List.length_append,bytes_length,size,Nat.add_assoc]
    have ending : front.length + (flat (event::events)).length = (front ++ event.bytes).length + (flat events).length := by
      rw [flat_cons,List.length_append,List.length_append,Nat.add_assoc]
    have same : front ++ (flat (event::events) ++ stale) = front ++ event.bytes ++ (flat events ++ stale) := by
      simp
    rw [eventsFrom,if_pos (by rw [ending,List.length_append,bytes_length]; omega),
      if_pos (by rw [same]; simp only [List.length_append,bytes_length]; omega),next,ending]
    nth_rewrite 1 [same]
    rw [rest,ok_bind,List.drop_left,flat_cons,List.append_assoc]
    rfl

theorem fieldsAt_bytes (event : InotifyEvent) (rest : List Byte) : fieldsAt (event.bytes ++ rest) = event.fields := by
  have word (w : UInt32) : w.toNat < 2^32 := w.toNat_lt
  have wd := readU32_le32 [] (le32 event.mask.toNat ++ le32 event.cookie.toNat ++ le32 event.name.length ++
    event.name ++ rest) event.wd.toNat (word _)
  have mask := readU32_le32 (le32 event.wd.toNat) (le32 event.cookie.toNat ++ le32 event.name.length ++
    event.name ++ rest) event.mask.toNat (word _)
  have cookie := readU32_le32 (le32 event.wd.toNat ++ le32 event.mask.toNat) (le32 event.name.length ++
    event.name ++ rest) event.cookie.toNat (word _)
  have length := length_at event [] rest
  have name : ((event.bytes ++ rest).drop 16).take event.name.length = event.name := by
    simp [InotifyEvent.bytes,le32]
  simp only [List.nil_append,List.append_assoc,List.length_nil,List.length_append,Nat.zero_add] at wd mask cookie length
  rw [fieldsAt,length,name,InotifyEvent.fields]
  simp only [InotifyEvent.bytes,List.append_assoc]
  rw [wd]
  exact congrArg₂ (fun m c => (event.wd.toNat,m,c,event.name)) mask cookie

/-- A name is read up to its NULs and no further. -/
theorem nameAt_bytes (event : InotifyEvent) (rest : List Byte) (named : event.name ≠ []) :
    nameAt (event.bytes ++ rest) = .ok event.text := by
  have inside : 0 ∈ event.name := event.closed.resolve_left named
  have behind : (event.bytes ++ rest).drop 16 = event.name ++ rest := by simp [InotifyEvent.bytes,le32]
  obtain ⟨text,later,split,free⟩ := List.eq_append_cons_of_mem inside
  have same : event.text = text := by
    rw [InotifyEvent.text,split,List.takeWhile_append_of_pos]
    · simp
    · intro b member
      have nonzero : b ≠ 0 := fun zero => free (zero ▸ member)
      simpa using nonzero
  rw [nameAt,behind,same,split,List.append_assoc,List.cons_append,List.map_append,List.map_cons]
  exact cstring_terminated text _ free

end Buffer

section Delivery

/-- The memory behind a pointer starts with the event. -/
def Shows (memory : List Byte) (event : InotifyEvent) : Prop := event.bytes <+: memory

def callsOf (i : Nat) (calls : Calls) : List (List Byte) := (calls.filter fun call => call.1 = i).map Prod.snd

theorem views_show (stale : List Byte) (events : List InotifyEvent) : List.Forall₂ Shows (views stale events) events := by
  induction events with
  | nil => exact .nil
  | cons event events ih => exact .cons (List.prefix_append _ _) ih

theorem shows_fields (memory : List Byte) (event : InotifyEvent) (shows : Shows memory event) :
    fieldsAt memory = event.fields := by
  obtain ⟨rest,rfl⟩ := shows
  exact fieldsAt_bytes event rest

theorem shows_name (memory : List Byte) (event : InotifyEvent) (shows : Shows memory event) (named : event.name ≠ []) :
    nameAt memory = .ok event.text := by
  obtain ⟨rest,rfl⟩ := shows
  exact nameAt_bytes event rest named

theorem fitting_fits (n : Nat) (queue : List InotifyEvent) : (flat (queue.take (fitting n queue))).length ≤ n := by
  induction queue generalizing n with
  | nil => exact Nat.zero_le _
  | cons event queue ih =>
    unfold fitting
    split
    · next room =>
      have rest := ih (n - event.size)
      rw [List.take_succ_cons,flat_cons,List.length_append,bytes_length]
      omega
    · exact Nat.zero_le _

theorem flat_take (k m : Nat) (queue : List InotifyEvent) (fewer : k ≤ m) :
    (flat (queue.take k)).length ≤ (flat (queue.take m)).length := by
  have split : queue.take m = queue.take k ++ (queue.take m).drop k := by
    nth_rewrite 1 [← List.take_append_drop k (queue.take m)]
    rw [List.take_take,Nat.min_eq_left fewer]
  rw [split,flat_append,List.length_append]
  exact Nat.le_add_right _ _

theorem fill_events (watch : Watch) (events : List InotifyEvent) (fits : (flat events).length ≤ 4096) :
    ∃ filled stale, watch.fill (flat events) = .ok filled ∧ filled.buf = flat events ++ stale ∧
      filled.nfds = watch.nfds ∧ filled.fds = watch.fds ∧ filled.wd = watch.wd ∧ filled.error = watch.error := by
  unfold Watch.fill
  rw [dif_pos (by rw [watch.sized]; exact fits)]
  exact ⟨_,_,rfl,rfl,rfl,rfl,rfl,rfl⟩

theorem eventsFrom_buffer (events : List InotifyEvent) (stale : List Byte) :
    eventsFrom (flat events ++ stale) 0 (flat events).length = .ok (views stale events) := by
  have whole := eventsFrom_views events [] stale
  simpa using whole

theorem callsOf_append (i : Nat) (first second : Calls) : callsOf i (first ++ second) = callsOf i first ++ callsOf i second := by
  rw [callsOf,List.filter_append,List.map_append]
  rfl

theorem callsOf_same (i : Nat) (shown : List (List Byte)) : callsOf i (shown.map fun memory => (i,memory)) = shown := by
  simp [callsOf,List.filter_map,Function.comp_def]

theorem callsOf_other (i j : Nat) (apart : i ≠ j) (shown : List (List Byte)) :
    callsOf i (shown.map fun memory => (j,memory)) = [] := by
  simp [callsOf,List.filter_map,Function.comp_def,Ne.symm apart]

theorem callsOf_none (i : Nat) (calls : Calls) (later : ∀ call ∈ calls, i < call.1) : callsOf i calls = [] := by
  rw [callsOf,List.filter_eq_nil_iff.mpr]
  · rfl
  · intro call member
    have above := later call member
    simp only [decide_eq_true_eq]
    omega

/-- What a poll does: it takes events off the fronts of the queues and calls the handler with each. -/
structure Polled (i : Nat) (watch last : Watch) (queues after : Queues) (calls : Calls) (result : Bool) : Prop where
  nfds : last.nfds = watch.nfds
  fds : last.fds = watch.fds
  error : last.error = if result then watch.error else 7
  order : ∀ call ∈ calls, i ≤ call.1
  others : ∀ j, j < i → after j = queues j
  handed : ∀ j, ∃ events, events ++ after j = queues j ∧ List.Forall₂ Shows (callsOf j calls) events

theorem pollFrom_polled (bits : Nat → Nat) (reads : Nat → NotifyRead) (left i : Nat) (watch : Watch) (queues : Queues) :
    ∃ result last after calls, pollFrom bits reads i left watch queues = .ok (result,last,after,calls) ∧
      Polled i watch last queues after calls result := by
  induction left generalizing i watch queues with
  | zero => exact ⟨true,watch,queues,[],rfl,rfl,rfl,rfl,by simp,fun _ _ => rfl,fun j => ⟨[],rfl,.nil⟩⟩
  | succ left ih =>
    have skipped (unread : ∃ result last after calls, pollFrom bits reads (i+1) left watch queues =
        .ok (result,last,after,calls) ∧ Polled (i+1) watch last queues after calls result) :
        ∃ result last after calls, pollFrom bits reads (i+1) left watch queues = .ok (result,last,after,calls) ∧
          Polled i watch last queues after calls result := by
      obtain ⟨result,last,after,calls,ok,polled⟩ := unread
      exact ⟨result,last,after,calls,ok,{polled with
        order := fun call member => Nat.le_of_succ_le (polled.order call member)
        others := fun j below => polled.others j (Nat.lt_succ_of_lt below)}⟩
    unfold pollFrom
    split
    · exact skipped (ih (i+1) watch queues)
    · cases answer : reads i with
      | failed errno =>
        dsimp only [notifyRead]
        split
        · exact skipped (ih (i+1) watch queues)
        · exact ⟨false,_,queues,[],rfl,rfl,rfl,rfl,by simp,fun _ _ => rfl,fun j => ⟨[],rfl,.nil⟩⟩
      | events count =>
        dsimp only [notifyRead]
        generalize number : min count (fitting 4096 (queues i)) = k
        have fits : (flat ((queues i).take k)).length ≤ 4096 :=
          (flat_take k _ _ (number ▸ Nat.min_le_right _ _)).trans (fitting_fits 4096 (queues i))
        obtain ⟨filled,stale,fill,buf,nfds,fds,_,error⟩ := fill_events watch _ fits
        obtain ⟨result,last,after,calls,ok,polled⟩ := ih (i+1) filled (Function.update queues i ((queues i).drop k))
        refine ⟨result,last,after,(views stale ((queues i).take k)).map (fun memory => (i,memory)) ++ calls,?_,
          polled.nfds.trans nfds,polled.fds.trans fds,?_,?_,?_,?_⟩
        · rw [fill,ok_bind,buf,eventsFrom_buffer,ok_bind,ok,ok_bind]
          rfl
        · rw [polled.error,error]
        · intro call member
          rcases List.mem_append.mp member with here | later
          · obtain ⟨_,_,rfl⟩ := List.mem_map.mp here
            exact Nat.le_refl i
          · exact Nat.le_of_succ_le (polled.order call later)
        · intro j below
          rw [polled.others j (Nat.lt_succ_of_lt below),Function.update_of_ne (Nat.ne_of_lt below)]
        · intro j
          rw [callsOf_append]
          by_cases same : j = i
          · subst same
            have rest := polled.others j (Nat.lt_succ_self j)
            rw [Function.update_self] at rest
            refine ⟨(queues j).take k,by rw [rest,List.take_append_drop],?_⟩
            rw [callsOf_same,callsOf_none j calls polled.order,List.append_nil]
            exact views_show stale _
          · obtain ⟨events,split,shown⟩ := polled.handed j
            rw [Function.update_of_ne same] at split
            refine ⟨events,split,?_⟩
            rw [callsOf_other j i same,List.nil_append]
            exact shown

/-- The last error after a poll; one that is interrupted leaves it as it was. -/
def errorAfter (watch : Watch) (ready : Ready) (result : Bool) : Nat :=
  match ready with
  | .failed errno => if errno = eintr then watch.error else 6
  | .revents _ => if result then 0 else 7

theorem notifyPoll_polled (watch : Watch) (queues : Queues) (ready : Ready) (reads : Nat → NotifyRead) :
    ∃ result last after calls, notifyPoll watch queues ready reads = .ok (result,last,after,calls) ∧
      last.nfds = watch.nfds ∧ last.fds = watch.fds ∧ last.error = errorAfter watch ready result ∧
      ∀ j, ∃ events, events ++ after j = queues j ∧ List.Forall₂ Shows (callsOf j calls) events := by
  cases ready with
  | failed errno =>
    unfold notifyPoll errorAfter
    dsimp only
    split
    · exact ⟨_,_,_,_,rfl,rfl,rfl,rfl,fun j => ⟨[],rfl,.nil⟩⟩
    · exact ⟨_,_,_,_,rfl,rfl,rfl,rfl,fun j => ⟨[],rfl,.nil⟩⟩
  | revents bits =>
    obtain ⟨result,last,after,calls,ok,polled⟩ := pollFrom_polled bits reads watch.nfds 0 watch queues
    unfold notifyPoll errorAfter
    dsimp only
    rw [ok,ok_bind]
    refine ⟨result,_,after,calls,rfl,?_,?_,?_,polled.handed⟩
    · split <;> exact polled.nfds
    · split <;> exact polled.fds
    · cases result with
      | true => rfl
      | false => exact polled.error

/-- A poll that finds the one directory ready and reads all its events calls the handler with each. -/
theorem notifyPoll_all (watch : Watch) (queues : Queues) (bits : Nat → Nat) (count : Nat) (one : watch.nfds = 1)
    (ready : flagged (bits 0) pollIn = true) (fits : fitting 4096 (queues 0) = (queues 0).length)
    (enough : (queues 0).length ≤ count) :
    ∃ last calls, notifyPoll watch queues (.revents bits) (fun _ => .events count) =
        .ok (true,last,Function.update queues 0 [],calls) ∧ last.nfds = 1 ∧
      List.Forall₂ Shows (callsOf 0 calls) (queues 0) := by
  have all : min count (fitting 4096 (queues 0)) = (queues 0).length := by rw [fits,Nat.min_eq_right enough]
  have small := fitting_fits 4096 (queues 0)
  rw [fits,List.take_length] at small
  obtain ⟨filled,stale,fill,buf,nfds,_⟩ := fill_events watch _ small
  have shown : eventsFrom filled.buf 0 (flat (queues 0)).length = .ok (views stale (queues 0)) := by
    rw [buf]
    exact eventsFrom_buffer _ _
  have taken : notifyRead (queues 0) 4096 (.events count) = (some (queues 0),[]) := by
    rw [notifyRead,all,List.take_length,List.drop_length]
  refine ⟨{filled with error := 0},(views stale (queues 0)).map fun memory => (0,memory),?_,nfds.trans one,?_⟩
  · unfold notifyPoll
    dsimp only
    rw [one,pollFrom,ready,taken]
    rw [if_neg (by decide)]
    dsimp only
    rw [fill,ok_bind,shown,ok_bind,pollFrom,ok_bind]
    simp only [List.append_nil]
    rfl
  · rw [callsOf_same]
    exact views_show stale _

end Delivery

section Lifetime

/-- What the kernel answers while the watches are set up: whether the two
allocations succeed, and for each directory the descriptor and the watch. -/
structure Setup where
  fds : Bool
  wd : Bool
  inotifyInit : Nat → Int
  addWatch : Nat → Int

/-- The loop of `notify_init` over the directories from the one at `i`, with the descriptors it opened. -/
def initFrom (setup : Setup) : Nat → Nat → Watch → Bool × Watch × List Int
  | _,0,watch => (true,{watch with error := 0},[])
  | i,left+1,watch =>
    let fd := setup.inotifyInit i
    let placed := {watch with nfds := watch.nfds + 1, fds := watch.fds.set i fd}
    if fd = -1 then (false,{placed with error := 4},[])
    else
      let watched := {placed with wd := placed.wd.set i (setup.addWatch i)}
      if setup.addWatch i = -1 then (false,{watched with error := 5},[fd])
      else
        let (result,last,opened) := initFrom setup (i+1) left watched
        (result,last,fd::opened)

def notifyInit (setup : Setup) (argc : Nat) (watch : Watch) : Bool × Watch × List Int :=
  if !setup.fds then (false,{watch with fds := [], error := 2},[])
  else if !setup.wd then (false,{watch with fds := List.replicate argc 0, wd := [], error := 3},[])
  else initFrom setup 0 argc
    {watch with nfds := 0, fds := List.replicate argc 0, wd := List.replicate argc 0}

/-- The descriptors in use are closed, and nothing is left but the last error. -/
def notifyShutdown (watch : Watch) : Except Stop (Watch × List Int) :=
  if watch.nfds ≤ watch.fds.length then
    .ok ({watch with nfds := 0, fds := [], wd := []},watch.fds.take watch.nfds)
  else .error .fault

def valid (fds : List Int) : List Int := fds.filter (· ≠ -1)

theorem valid_append (first second : List Int) : valid (first ++ second) = valid first ++ valid second :=
  List.filter_append ..

theorem initFrom_opened (setup : Setup) (left i : Nat) (watch : Watch) (used : watch.nfds = i)
    (room : watch.fds.length = i + left) :
    (initFrom setup i left watch).2.1.nfds ≤ (initFrom setup i left watch).2.1.fds.length ∧
      valid ((initFrom setup i left watch).2.1.fds.take (initFrom setup i left watch).2.1.nfds) =
        valid (watch.fds.take i) ++ (initFrom setup i left watch).2.2 := by
  induction left generalizing i watch with
  | zero =>
    refine ⟨by rw [initFrom,used,room]; exact Nat.le_refl _,?_⟩
    rw [initFrom,List.append_nil,used]
  | succ left ih =>
    have length : (watch.fds.set i (setup.inotifyInit i)).length = i + 1 + left := by
      rw [List.length_set,room]
      omega
    have front : (watch.fds.set i (setup.inotifyInit i)).take (i + 1) = watch.fds.take i ++ [setup.inotifyInit i] := by
      rw [List.take_add_one,List.getElem?_set_self (by omega),List.take_set_of_le (Nat.le_refl i)]
      rfl
    unfold initFrom
    dsimp only
    split
    · next failed =>
      refine ⟨?_,?_⟩
      · dsimp only
        omega
      · dsimp only
        rw [used,front,valid_append,failed]
        rfl
    · next fd =>
      have one : valid [setup.inotifyInit i] = [setup.inotifyInit i] := by simpa [valid] using fd
      split
      · refine ⟨?_,?_⟩
        · dsimp only
          omega
        · dsimp only
          rw [used,front,valid_append,one]
      · obtain ⟨inside,rest⟩ := ih (i+1)
          {watch with nfds := watch.nfds + 1, fds := watch.fds.set i (setup.inotifyInit i)
                      wd := watch.wd.set i (setup.addWatch i)} (by dsimp only; omega) length
        refine ⟨inside,?_⟩
        dsimp only at rest ⊢
        rw [rest,front,valid_append,one,List.append_assoc]
        rfl

/-- "feature.so", closed after it was written. -/
def featureEvent : InotifyEvent where
  wd := 1
  mask := 8
  cookie := 0
  name := [102,101,97,116,117,114,101,46,115,111,0,0,0,0,0,0]
  closed := .inr (by decide)
  fits := by decide

def goodSetup : Setup := ⟨true,true,fun _ => 5,fun _ => 1⟩

/-- The process and the kernel: the events that were queued since the watch was set
up, the calls of the handler, and the descriptors opened and closed so far. -/
structure Host where
  active : Bool
  watch : Watch
  queues : Queues
  queued : Queues
  calls : Calls
  opened : List Int
  closed : List Int

/-- The runs of a process: each session sets up its watch, polls it while the kernel
queues events, and shuts it down, whatever the calls return. -/
inductive HostRun (argc : Nat) : Host → Prop
  | boot : HostRun argc ⟨false,.boot,fun _ => [],fun _ => [],[],[],[]⟩
  | init (host : Host) (setup : Setup) (run : HostRun argc host) (idle : host.active = false) :
      HostRun argc ⟨true,(notifyInit setup argc host.watch).2.1,fun _ => [],fun _ => [],[],
        host.opened ++ (notifyInit setup argc host.watch).2.2,host.closed⟩
  | event (host : Host) (i : Nat) (event : InotifyEvent) (run : HostRun argc host) (active : host.active = true) :
      HostRun argc {host with
        queues := Function.update host.queues i (host.queues i ++ [event])
        queued := Function.update host.queued i (host.queued i ++ [event])}
  | poll (host : Host) (ready : Ready) (reads : Nat → NotifyRead) (result : Bool) (last : Watch) (after : Queues)
      (calls : Calls) (run : HostRun argc host) (active : host.active = true)
      (poll : notifyPoll host.watch host.queues ready reads = .ok (result,last,after,calls)) :
      HostRun argc {host with watch := last, queues := after, calls := host.calls ++ calls}
  | shutdown (host : Host) (watch : Watch) (closes : List Int) (run : HostRun argc host) (active : host.active = true)
      (step : notifyShutdown host.watch = .ok (watch,closes)) :
      HostRun argc {host with active := false, watch := watch, closed := host.closed ++ closes}

theorem run_handed (argc : Nat) (host : Host) (run : HostRun argc host) (i : Nat) :
    ∃ events, events ++ host.queues i = host.queued i ∧ List.Forall₂ Shows (callsOf i host.calls) events := by
  induction run with
  | boot => exact ⟨[],rfl,.nil⟩
  | init host setup run idle ih => exact ⟨[],rfl,.nil⟩
  | event host j event run active ih =>
    obtain ⟨events,split,shown⟩ := ih
    refine ⟨events,?_,shown⟩
    dsimp only
    by_cases same : i = j
    · subst same
      rw [Function.update_self,Function.update_self,← List.append_assoc,split]
    · rw [Function.update_of_ne same,Function.update_of_ne same,split]
  | poll host ready reads result last after calls run active poll ih =>
    obtain ⟨events,split,shown⟩ := ih
    obtain ⟨_,_,_,_,again,_,_,_,handed⟩ := notifyPoll_polled host.watch host.queues ready reads
    cases poll.symm.trans again
    obtain ⟨more,taken,shows⟩ := handed i
    refine ⟨events ++ more,?_,?_⟩
    · rw [List.append_assoc,taken,split]
    · rw [callsOf_append]
      exact List.rel_append shown shows
  | shutdown host watch closes run active step ih => exact ih

/-- One directory, one event, and a poll that takes it. -/
theorem feature_run : ∃ host, HostRun 1 host ∧ host.active = true ∧ host.opened = [5] ∧ host.closed = [] ∧
    host.queued 0 = [featureEvent] ∧ host.queues 0 = [] ∧ host.watch.nfds = 1 ∧ host.watch.fds = [5] := by
  have set := HostRun.init _ goodSetup (HostRun.boot : HostRun 1 _) rfl
  have queued := HostRun.event _ 0 featureEvent set rfl
  obtain ⟨last,calls,poll,one,_⟩ := notifyPoll_all (notifyInit goodSetup 1 .boot).2.1
    (Function.update (fun _ => []) 0 [featureEvent]) (fun _ => pollIn) 1 rfl (by decide) (by decide) (Nat.le_refl 1)
  obtain ⟨_,_,_,_,again,_,fds,_,_⟩ := notifyPoll_polled (notifyInit goodSetup 1 .boot).2.1
    (Function.update (fun _ => []) 0 [featureEvent]) (.revents fun _ => pollIn) (fun _ => .events 1)
  cases poll.symm.trans again
  exact ⟨_,.poll _ _ _ _ _ _ _ queued rfl poll,rfl,rfl,rfl,rfl,rfl,one,fds⟩

/-- Every event is handed to the handler once, in the order of its queue and as it
was queued, or still waits there; a name arrives whole, and nothing behind it. -/
theorem handled_in_order (argc : Nat) (host : Host) (run : HostRun argc host) (i : Nat) :
    (callsOf i host.calls).map fieldsAt ++ (host.queues i).map InotifyEvent.fields =
        (host.queued i).map InotifyEvent.fields ∧
      ∀ (j : Nat) (memory : List Byte) (event : InotifyEvent), (callsOf i host.calls)[j]? = some memory →
        (host.queued i)[j]? = some event → event.name ≠ [] → nameAt memory = .ok event.text := by
  obtain ⟨events,split,shown⟩ := run_handed argc host run i
  have fields : (callsOf i host.calls).map fieldsAt = events.map InotifyEvent.fields := by
    clear split
    generalize callsOf i host.calls = calls at shown
    induction shown with
    | nil => rfl
    | cons head _ ih => rw [List.map_cons,List.map_cons,shows_fields _ _ head,ih]
  refine ⟨by rw [fields,← List.map_append,split],?_⟩
  intro j memory event call queued named
  obtain ⟨inside,here⟩ := List.getElem?_eq_some_iff.mp call
  have handed : j < events.length := shown.length_eq ▸ inside
  rw [← split,List.getElem?_append_left handed,List.getElem?_eq_getElem handed] at queued
  have shows := shown.get inside handed
  rw [List.get_eq_getElem,List.get_eq_getElem,here,Option.some.inj queued] at shows
  exact shows_name memory event shows named

theorem handled_feature : ∃ host, HostRun 1 host ∧ host.queued 0 = [featureEvent] ∧ host.queues 0 = [] ∧
    ((callsOf 0 host.calls).map fieldsAt ++ (host.queues 0).map InotifyEvent.fields =
        (host.queued 0).map InotifyEvent.fields ∧
      ∀ (j : Nat) (memory : List Byte) (event : InotifyEvent), (callsOf 0 host.calls)[j]? = some memory →
        (host.queued 0)[j]? = some event → event.name ≠ [] → nameAt memory = .ok event.text) := by
  obtain ⟨host,run,_,_,_,queued,taken,_⟩ := feature_run
  exact ⟨host,run,queued,taken,handled_in_order 1 host run 0⟩

theorem notifyInit_opened (setup : Setup) (argc : Nat) (watch : Watch) (unused : watch.nfds = 0) :
    (notifyInit setup argc watch).2.1.nfds ≤ (notifyInit setup argc watch).2.1.fds.length ∧
      valid ((notifyInit setup argc watch).2.1.fds.take (notifyInit setup argc watch).2.1.nfds) =
        (notifyInit setup argc watch).2.2 := by
  unfold notifyInit
  split
  · dsimp only
    rw [unused]
    exact ⟨Nat.zero_le _,rfl⟩
  · split
    · dsimp only
      rw [unused]
      exact ⟨Nat.zero_le _,rfl⟩
    · exact initFrom_opened setup argc 0 _ rfl (by dsimp only; rw [List.length_replicate,Nat.zero_add])

/-- The descriptors that a session has open. -/
def Host.descriptors (host : Host) : List Int := if host.active then valid (host.watch.fds.take host.watch.nfds) else []

/-- Every descriptor that a session opens it closes, and closes once, also when
setting the watch up failed half way; the shutdown finds all of them in its array. -/
theorem descriptors_closed (argc : Nat) (host : Host) (run : HostRun argc host) :
    valid host.closed ++ host.descriptors = host.opened ∧ ∃ after, notifyShutdown host.watch = .ok after := by
  have shuts (watch : Watch) (inside : watch.nfds ≤ watch.fds.length) : ∃ after, notifyShutdown watch = .ok after :=
    ⟨_,if_pos inside⟩
  have inside : host.watch.nfds ≤ host.watch.fds.length ∧ (host.active = false → host.watch.nfds = 0) ∧
      valid host.closed ++ host.descriptors = host.opened := by
    induction run with
    | boot => exact ⟨Nat.le_refl 0,fun _ => rfl,rfl⟩
    | init host setup run idle ih =>
      obtain ⟨_,unused,all⟩ := ih
      obtain ⟨used,fresh⟩ := notifyInit_opened setup argc host.watch (unused idle)
      refine ⟨used,fun closed => (by cases closed),?_⟩
      rw [Host.descriptors,idle,if_neg Bool.false_ne_true,List.append_nil] at all
      rw [Host.descriptors,if_pos rfl]
      dsimp only
      rw [fresh,all]
    | event host i event run active ih => exact ih
    | poll host ready reads result last after calls run active poll ih =>
      obtain ⟨_,_,_,_,again,nfds,fds,_,_⟩ := notifyPoll_polled host.watch host.queues ready reads
      cases poll.symm.trans again
      obtain ⟨used,_,all⟩ := ih
      rw [Host.descriptors] at all ⊢
      dsimp only
      rw [nfds,fds]
      exact ⟨used,fun closed => (by cases active.symm.trans closed),all⟩
    | shutdown host watch closes run active step ih =>
      obtain ⟨used,_,all⟩ := ih
      obtain ⟨rfl,rfl⟩ : {host.watch with nfds := 0, fds := [], wd := []} = watch ∧
          host.watch.fds.take host.watch.nfds = closes := by
        rw [notifyShutdown,if_pos used] at step
        exact Prod.mk.inj (Except.ok.inj step)
      refine ⟨Nat.le_refl 0,fun _ => rfl,?_⟩
      rw [Host.descriptors,active,if_pos rfl] at all
      rw [Host.descriptors,if_neg Bool.false_ne_true,List.append_nil,valid_append]
      exact all
  exact ⟨inside.2.2,shuts _ inside.1⟩

theorem descriptor_closed : ∃ host, HostRun 1 host ∧ host.opened = [5] ∧ host.closed = [5] ∧
    valid host.closed ++ host.descriptors = host.opened ∧ ∃ after, notifyShutdown host.watch = .ok after := by
  obtain ⟨host,run,active,opened,closed,_,_,nfds,fds⟩ := feature_run
  have shuts : notifyShutdown host.watch = .ok ({host.watch with nfds := 0, fds := [], wd := []},[5]) := by
    rw [notifyShutdown,nfds,fds]
    rfl
  have run := HostRun.shutdown _ _ _ run active shuts
  exact ⟨_,run,opened,by rw [closed]; rfl,descriptors_closed 1 _ run⟩

end Lifetime

end Craftsman.Notify
