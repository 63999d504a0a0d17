import Mathlib.Data.Fintype.Card
import Mathlib.Data.List.Infix
import Mathlib.Logic.Function.Iterate
import Mathlib.Tactic.Common

/-! Threads that draw numbers from one counter and are let in by another. Taking a
number is a load and a store; while no two threads take theirs at once, the work
under the lock is done by one thread after the other, in the order of the numbers. -/
namespace Craftsman.Stream.Turnstile

/-- What a thread does while it is inside: one event after the other, until it has a result. -/
structure Work (ω ε ρ : Type) where
  start : ω
  step : ω → ε → Option ω
  result : ω → Option ρ

inductive Phase (κ ω ρ : Type) where
  | idle
  | drawing (ticket : κ)
  | waiting (ticket : κ)
  | inside (state : ω)
  | leaving (seen : κ) (result : ρ)

structure Gate (ι κ ω ρ : Type) where
  issuing : κ
  serving : κ
  phase : ι → Phase κ ω ρ

/-- Who loaded the counter, what was done inside, and who left with which result. -/
structure History (ι ε ρ : Type) where
  arrivals : List ι
  log : List (ι × ε)
  served : List (ι × ρ)

variable {ι κ ω ε ρ : Type}

def Phase.busy : Phase κ ω ρ → Bool
  | .inside _ => true
  | .leaving _ _ => true
  | _ => false

def Work.after (work : Work ω ε ρ) (events : List ε) : Option ω := events.foldlM work.step work.start

def Work.Gives (work : Work ω ε ρ) (events : List ε) (result : ρ) : Prop :=
  ∃ state, work.after events = some state ∧ work.result state = some result

theorem Work.after_snoc (work : Work ω ε ρ) (events : List ε) (state later : ω) (event : ε)
    (here : work.after events = some state) (step : work.step state event = some later) :
    work.after (events ++ [event]) = some later := by
  rw [Work.after] at here
  rw [Work.after,List.foldlM_append,here]
  simp [step]

section Queue
variable [DecidableEq ι]

def Gate.put (s : Gate ι κ ω ρ) (i : ι) (phase : Phase κ ω ρ) : Gate ι κ ω ρ :=
  {s with phase := Function.update s.phase i phase}

@[simp] theorem put_self (s : Gate ι κ ω ρ) (i : ι) (phase : Phase κ ω ρ) : (s.put i phase).phase i = phase := by
  simp [Gate.put]

theorem put_other (s : Gate ι κ ω ρ) (i j : ι) (phase : Phase κ ω ρ) (apart : j ≠ i) :
    (s.put i phase).phase j = s.phase j := by
  simp [Gate.put,apart]

/-- The runs from a counter's value on. Where loads may overlap, a thread can load the
number that another has loaded and not yet stored back. -/
inductive Run (work : Work ω ε ρ) (next : κ → κ) (first : κ) (overlap : Prop) :
    Gate ι κ ω ρ → History ι ε ρ → Prop
  | start : Run work next first overlap ⟨first,first,fun _ => .idle⟩ ⟨[],[],[]⟩
  | draw (s : Gate ι κ ω ρ) (h : History ι ε ρ) (i : ι) (run : Run work next first overlap s h)
      (idle : s.phase i = .idle) (alone : overlap ∨ ∀ j ticket, s.phase j ≠ .drawing ticket) :
      Run work next first overlap (s.put i (.drawing s.issuing)) {h with arrivals := h.arrivals ++ [i]}
  | number (s : Gate ι κ ω ρ) (h : History ι ε ρ) (i : ι) (ticket : κ) (run : Run work next first overlap s h)
      (drawing : s.phase i = .drawing ticket) :
      Run work next first overlap {s.put i (.waiting ticket) with issuing := next ticket} h
  | enter (s : Gate ι κ ω ρ) (h : History ι ε ρ) (i : ι) (run : Run work next first overlap s h)
      (waiting : s.phase i = .waiting s.serving) :
      Run work next first overlap (s.put i (.inside work.start)) h
  | event (s : Gate ι κ ω ρ) (h : History ι ε ρ) (i : ι) (state later : ω) (event : ε)
      (run : Run work next first overlap s h) (inside : s.phase i = .inside state)
      (step : work.step state event = some later) :
      Run work next first overlap (s.put i (.inside later)) {h with log := h.log ++ [(i,event)]}
  | leave (s : Gate ι κ ω ρ) (h : History ι ε ρ) (i : ι) (state : ω) (result : ρ)
      (run : Run work next first overlap s h) (inside : s.phase i = .inside state)
      (done : work.result state = some result) :
      Run work next first overlap (s.put i (.leaving s.serving result)) h
  | pass (s : Gate ι κ ω ρ) (h : History ι ε ρ) (i : ι) (seen : κ) (result : ρ)
      (run : Run work next first overlap s h) (leaving : s.phase i = .leaving seen result) :
      Run work next first overlap {s.put i .idle with serving := next seen}
        {h with served := h.served ++ [(i,result)]}

/-- The threads that hold a number, in its order. -/
structure Queued (next : κ → κ) (s : Gate ι κ ω ρ) (queue : List ι) : Prop where
  nodup : queue.Nodup
  members : ∀ i, i ∈ queue ↔ s.phase i ≠ .idle
  drawing : ∀ (k : Nat) i ticket, queue[k]? = some i → s.phase i = .drawing ticket →
    ticket = next^[k] s.serving ∧ k + 1 = queue.length
  waiting : ∀ (k : Nat) i ticket, queue[k]? = some i → s.phase i = .waiting ticket → ticket = next^[k] s.serving
  busy : ∀ (k : Nat) i, queue[k]? = some i → (s.phase i).busy = true → k = 0
  leaving : ∀ i seen result, s.phase i = .leaving seen result → seen = s.serving
  issuing : (∀ i ticket, s.phase i ≠ .drawing ticket) → s.issuing = next^[queue.length] s.serving

variable {next : κ → κ} {s : Gate ι κ ω ρ} {queue : List ι}

omit [DecidableEq ι] in
theorem Queued.place (queued : Queued next s queue) (i : ι) (active : s.phase i ≠ .idle) :
    ∃ k : Nat, queue[k]? = some i :=
  List.mem_iff_getElem?.mp ((queued.members i).mpr active)

omit [DecidableEq ι] in
theorem Queued.same (queued : Queued next s queue) (k j : Nat) (i : ι) (here : queue[k]? = some i)
    (there : queue[j]? = some i) : k = j := by
  obtain ⟨inside,_⟩ := List.getElem?_eq_some_iff.mp here
  exact (List.getElem?_inj inside queued.nodup).mp (here.trans there.symm)

omit [DecidableEq ι] in
theorem Queued.exclusive (queued : Queued next s queue) (i j : ι) (left : (s.phase i).busy = true)
    (right : (s.phase j).busy = true) : i = j := by
  obtain ⟨k,here⟩ := queued.place i fun idle => by rw [idle] at left; cases left
  obtain ⟨l,there⟩ := queued.place j fun idle => by rw [idle] at right; cases right
  obtain rfl := queued.busy k i here left
  obtain rfl := queued.busy l j there right
  exact Option.some.inj (here.symm.trans there)

omit [DecidableEq ι] in
theorem queued_start (next : κ → κ) (first : κ) :
    Queued next (⟨first,first,fun _ => .idle⟩ : Gate ι κ ω ρ) [] where
  nodup := List.nodup_nil
  members := fun i => ⟨fun member => absurd member List.not_mem_nil,fun active => absurd rfl active⟩
  drawing := fun k i ticket here => by cases here
  waiting := fun k i ticket here => by cases here
  busy := fun k i here => by cases here
  leaving := fun i seen result phase => by cases phase
  issuing := fun _ => rfl

theorem Queued.draw (queued : Queued next s queue) (i : ι) (idle : s.phase i = .idle)
    (alone : ∀ j ticket, s.phase j ≠ .drawing ticket) :
    Queued next (s.put i (.drawing s.issuing)) (queue ++ [i]) := by
  have absent : i ∉ queue := fun member => (queued.members i).mp member idle
  have other (k : Nat) (j : ι) (apart : j ≠ i) (here : (queue ++ [i])[k]? = some j) : queue[k]? = some j := by
    rcases Nat.lt_or_ge k queue.length with early | late
    · rwa [List.getElem?_append_left early] at here
    · rw [List.getElem?_append_right late] at here
      exact absurd (List.mem_singleton.mp (List.mem_of_getElem? here)) apart
  have mine (k : Nat) (here : (queue ++ [i])[k]? = some i) : k = queue.length := by
    rcases Nat.lt_or_ge k queue.length with early | late
    · rw [List.getElem?_append_left early] at here
      exact absurd (List.mem_of_getElem? here) absent
    · obtain ⟨inside,_⟩ := List.getElem?_eq_some_iff.mp here
      rw [List.length_append,List.length_singleton] at inside
      omega
  refine ⟨?_,?_,?_,?_,?_,?_,?_⟩
  · exact List.nodup_append.mpr ⟨queued.nodup,List.nodup_singleton i,fun j member l last same => absent
      (by rw [← List.mem_singleton.mp last,← same]; exact member)⟩
  · intro j
    rcases eq_or_ne j i with rfl | apart
    · simp
    · rw [put_other s i j _ apart,← queued.members j]
      simp [apart]
  · intro k j ticket here phase
    rcases eq_or_ne j i with rfl | apart
    · obtain rfl := mine k here
      rw [put_self] at phase
      cases phase
      exact ⟨queued.issuing alone,by simp⟩
    · rw [put_other s i j _ apart] at phase
      exact absurd phase (alone j ticket)
  · intro k j ticket here phase
    rcases eq_or_ne j i with rfl | apart
    · rw [put_self] at phase
      cases phase
    · rw [put_other s i j _ apart] at phase
      exact queued.waiting k j ticket (other k j apart here) phase
  · intro k j here busy
    rcases eq_or_ne j i with rfl | apart
    · rw [put_self] at busy
      cases busy
    · rw [put_other s i j _ apart] at busy
      exact queued.busy k j (other k j apart here) busy
  · intro j seen result phase
    rcases eq_or_ne j i with rfl | apart
    · rw [put_self] at phase
      cases phase
    · rw [put_other s i j _ apart] at phase
      exact queued.leaving j seen result phase
  · intro none
    exact absurd (put_self s i _) (none i s.issuing)

/-- A thread of the queue goes on to a phase that its place allows. -/
theorem Queued.put (queued : Queued next s queue) (i : ι) (k : Nat) (issuing : κ) (phase : Phase κ ω ρ)
    (here : queue[k]? = some i) (active : phase ≠ .idle) (drawn : ∀ ticket, phase ≠ .drawing ticket)
    (waits : ∀ ticket, phase = .waiting ticket → ticket = next^[k] s.serving) (front : phase.busy = true → k = 0)
    (leaves : ∀ seen result, phase = .leaving seen result → seen = s.serving)
    (counter : (∀ j ≠ i, ∀ ticket, s.phase j ≠ .drawing ticket) → issuing = next^[queue.length] s.serving) :
    Queued next {s.put i phase with issuing := issuing} queue := by
  have member : i ∈ queue := List.mem_of_getElem? here
  refine ⟨queued.nodup,?_,?_,?_,?_,?_,?_⟩
  · intro j
    change j ∈ queue ↔ (s.put i phase).phase j ≠ .idle
    rcases eq_or_ne j i with rfl | apart
    · rw [put_self]
      exact ⟨fun _ => active,fun _ => member⟩
    · rw [put_other s i j _ apart]
      exact queued.members j
  · intro l j ticket there drawing
    change (s.put i phase).phase j = .drawing ticket at drawing
    rcases eq_or_ne j i with rfl | apart
    · rw [put_self] at drawing
      exact absurd drawing (drawn ticket)
    · rw [put_other s i j _ apart] at drawing
      exact queued.drawing l j ticket there drawing
  · intro l j ticket there waiting
    change (s.put i phase).phase j = .waiting ticket at waiting
    rcases eq_or_ne j i with rfl | apart
    · rw [put_self] at waiting
      obtain rfl := queued.same k l j here there
      exact waits ticket waiting
    · rw [put_other s i j _ apart] at waiting
      exact queued.waiting l j ticket there waiting
  · intro l j there busy
    change ((s.put i phase).phase j).busy = true at busy
    rcases eq_or_ne j i with rfl | apart
    · rw [put_self] at busy
      obtain rfl := queued.same k l j here there
      exact front busy
    · rw [put_other s i j _ apart] at busy
      exact queued.busy l j there busy
  · intro j seen result leaving
    change (s.put i phase).phase j = .leaving seen result at leaving
    rcases eq_or_ne j i with rfl | apart
    · rw [put_self] at leaving
      exact leaves seen result leaving
    · rw [put_other s i j _ apart] at leaving
      exact queued.leaving j seen result leaving
  · intro none
    apply counter
    intro j apart ticket drawing
    apply none j ticket
    change (s.put i phase).phase j = .drawing ticket
    rw [put_other s i j _ apart]
    exact drawing

theorem Queued.number (queued : Queued next s queue) (i : ι) (ticket : κ) (drawing : s.phase i = .drawing ticket) :
    Queued next {s.put i (.waiting ticket) with issuing := next ticket} queue := by
  obtain ⟨k,here⟩ := queued.place i (by rw [drawing]; exact fun same => by cases same)
  obtain ⟨number,last⟩ := queued.drawing k i ticket here drawing
  refine queued.put i k (next ticket) (.waiting ticket) here (fun same => by cases same) (fun _ same => by cases same)
    ?_ (fun busy => by cases busy) (fun _ _ same => by cases same) ?_
  · intro other same
    cases same
    exact number
  · intro _
    rw [← last,Function.iterate_succ_apply',number]

/-- Only the front of the queue is served: between two numbers the counter does not
come back to where it was. -/
theorem Queued.enter (queued : Queued next s queue) (n : Nat) (apart : ∀ k < n, next^[k] s.serving = s.serving → k = 0)
    (few : queue.length ≤ n) (i : ι) (start : ω) (waiting : s.phase i = .waiting s.serving) :
    Queued next (s.put i (.inside start)) queue := by
  obtain ⟨k,here⟩ := queued.place i (by rw [waiting]; exact fun same => by cases same)
  obtain ⟨inside,_⟩ := List.getElem?_eq_some_iff.mp here
  have front : k = 0 := apart k (inside.trans_le few) (queued.waiting k i s.serving here waiting).symm
  refine queued.put i k s.issuing (.inside start) here (fun same => by cases same) (fun _ same => by cases same)
    (fun _ same => by cases same) (fun _ => front) (fun _ _ same => by cases same) ?_
  intro none
  apply queued.issuing
  intro j ticket drawing
  rcases eq_or_ne j i with rfl | other
  · rw [waiting] at drawing
    cases drawing
  · exact none j other ticket drawing

/-- The thread inside stays there or makes ready to leave. -/
theorem Queued.work (queued : Queued next s queue) (i : ι) (state : ω) (inside : s.phase i = .inside state)
    (phase : Phase κ ω ρ) (busy : phase.busy = true) (leaves : ∀ seen result, phase = .leaving seen result → seen = s.serving) :
    Queued next (s.put i phase) queue := by
  obtain ⟨k,here⟩ := queued.place i (by rw [inside]; exact fun same => by cases same)
  refine queued.put i k s.issuing phase here ?_ ?_ ?_ (fun _ => queued.busy k i here (by rw [inside]; rfl)) leaves ?_
  · intro same
    rw [same] at busy
    cases busy
  · intro ticket same
    rw [same] at busy
    cases busy
  · intro ticket same
    rw [same] at busy
    cases busy
  · intro none
    apply queued.issuing
    intro j ticket drawing
    rcases eq_or_ne j i with rfl | other
    · rw [inside] at drawing
      cases drawing
    · exact none j other ticket drawing

theorem Queued.pass (queued : Queued next s queue) (i : ι) (seen : κ) (result : ρ)
    (leaving : s.phase i = .leaving seen result) :
    ∃ rest, queue = i::rest ∧ Queued next {s.put i .idle with serving := next seen} rest := by
  obtain ⟨k,here⟩ := queued.place i (by rw [leaving]; exact fun same => by cases same)
  obtain rfl := queued.busy k i here (by rw [leaving]; rfl)
  obtain rfl := queued.leaving i seen result leaving
  obtain ⟨rest,rfl⟩ : ∃ rest, queue = i::rest := by
    cases queue with
    | nil => cases here
    | cons j rest =>
      cases here
      exact ⟨rest,rfl⟩
  obtain ⟨absent,unique⟩ := List.nodup_cons.mp queued.nodup
  have other (j : ι) (k : Nat) (there : rest[k]? = some j) : j ≠ i := by
    rintro rfl
    exact absent (List.mem_of_getElem? there)
  refine ⟨rest,rfl,unique,?_,?_,?_,?_,?_,?_⟩
  · intro j
    change j ∈ rest ↔ (s.put i .idle).phase j ≠ .idle
    rcases eq_or_ne j i with rfl | apart
    · simp [absent]
    · rw [put_other s i j _ apart,← queued.members j,List.mem_cons]
      simp [apart]
  · intro k j ticket there drawing
    change (s.put i .idle).phase j = .drawing ticket at drawing
    rw [put_other s i j _ (other j k there)] at drawing
    obtain ⟨number,last⟩ := queued.drawing (k + 1) j ticket there drawing
    exact ⟨number,by simpa using last⟩
  · intro k j ticket there waiting
    change (s.put i .idle).phase j = .waiting ticket at waiting
    rw [put_other s i j _ (other j k there)] at waiting
    exact queued.waiting (k + 1) j ticket there waiting
  · intro k j there busy
    change ((s.put i .idle).phase j).busy = true at busy
    rw [put_other s i j _ (other j k there)] at busy
    exact absurd (queued.busy (k + 1) j there busy) (Nat.succ_ne_zero k)
  · intro j seen' result' phase
    change (s.put i .idle).phase j = .leaving seen' result' at phase
    rcases eq_or_ne j i with rfl | apart
    · rw [put_self] at phase
      cases phase
    · rw [put_other s i j _ apart] at phase
      exact absurd (queued.exclusive j i (by rw [phase]; rfl) (by rw [leaving]; rfl)) apart
  · intro none
    apply queued.issuing
    intro j ticket drawing
    rcases eq_or_ne j i with rfl | apart
    · rw [leaving] at drawing
      cases drawing
    · apply none j ticket
      change (s.put i .idle).phase j = .drawing ticket
      rw [put_other s i j _ apart]
      exact drawing

end Queue

section Blocks
variable [DecidableEq ι] {work : Work ω ε ρ} {s : Gate ι κ ω ρ} {h : History ι ε ρ}
  {blocks : List (List (ι × ε))} {tail : List (ι × ε)}

/-- The events of a call, all of one thread. -/
def Served (work : Work ω ε ρ) (call : ι × ρ) (block : List (ι × ε)) : Prop :=
  ∃ events, block = events.map (Prod.mk call.1) ∧ work.Gives events call.2

/-- The log is one block for each call that was served, and what the thread inside has done. -/
structure Serial (work : Work ω ε ρ) (s : Gate ι κ ω ρ) (h : History ι ε ρ) (blocks : List (List (ι × ε)))
    (tail : List (ι × ε)) : Prop where
  log : h.log = blocks.flatten ++ tail
  served : List.Forall₂ (Served work) h.served blocks
  quiet : (∀ i, (s.phase i).busy = false) → tail = []
  inside : ∀ i state, s.phase i = .inside state →
    ∃ events, tail = events.map (Prod.mk i) ∧ work.after events = some state
  leaving : ∀ i seen result, s.phase i = .leaving seen result →
    ∃ events, tail = events.map (Prod.mk i) ∧ work.Gives events result

omit [DecidableEq ι] in
theorem serial_start (work : Work ω ε ρ) (first : κ) :
    Serial work (⟨first,first,fun _ => .idle⟩ : Gate ι κ ω ρ) ⟨[],[],[]⟩ [] [] where
  log := rfl
  served := .nil
  quiet := fun _ => rfl
  inside := fun i state phase => by cases phase
  leaving := fun i seen result phase => by cases phase

/-- What a thread outside does, the others do not see. -/
theorem Serial.outside (serial : Serial work s h blocks tail) (i : ι) (issuing : κ) (arrivals : List ι)
    (phase : Phase κ ω ρ) (before : (s.phase i).busy = false) (after : phase.busy = false) :
    Serial work {s.put i phase with issuing := issuing} {h with arrivals := arrivals} blocks tail := by
  refine ⟨serial.log,serial.served,?_,?_,?_⟩
  · intro none
    apply serial.quiet
    intro j
    rcases eq_or_ne j i with rfl | apart
    · exact before
    · have still := none j
      change ((s.put i phase).phase j).busy = false at still
      rwa [put_other s i j _ apart] at still
  · intro j state here
    change (s.put i phase).phase j = .inside state at here
    rcases eq_or_ne j i with rfl | apart
    · rw [put_self] at here
      rw [here] at after
      cases after
    · rw [put_other s i j _ apart] at here
      exact serial.inside j state here
  · intro j seen result here
    change (s.put i phase).phase j = .leaving seen result at here
    rcases eq_or_ne j i with rfl | apart
    · rw [put_self] at here
      rw [here] at after
      cases after
    · rw [put_other s i j _ apart] at here
      exact serial.leaving j seen result here

/-- The step of a thread that is the only one inside, to a phase its events lead to. -/
theorem Serial.put (serial : Serial work s h blocks tail) (i : ι) (phase : Phase κ ω ρ) (events more : List ε)
    (same : tail = events.map (Prod.mk i)) (alone : ∀ j, (s.phase j).busy = true → j = i) (busy : phase.busy = true)
    (state : ∀ later, phase = .inside later → work.after (events ++ more) = some later)
    (gives : ∀ seen result, phase = .leaving seen result → work.Gives (events ++ more) result) :
    Serial work (s.put i phase) {h with log := h.log ++ more.map (Prod.mk i)} blocks
      ((events ++ more).map (Prod.mk i)) := by
  refine ⟨?_,serial.served,?_,?_,?_⟩
  · dsimp only
    rw [serial.log,same,List.map_append,List.append_assoc]
  · intro none
    have still := none i
    rw [put_self,busy] at still
    cases still
  · intro j later here
    rcases eq_or_ne j i with rfl | apart
    · rw [put_self] at here
      exact ⟨_,rfl,state later here⟩
    · rw [put_other s i j _ apart] at here
      exact absurd (alone j (by rw [here]; rfl)) apart
  · intro j seen result here
    rcases eq_or_ne j i with rfl | apart
    · rw [put_self] at here
      exact ⟨_,rfl,gives seen result here⟩
    · rw [put_other s i j _ apart] at here
      exact absurd (alone j (by rw [here]; rfl)) apart

theorem Serial.pass (serial : Serial work s h blocks tail) (i : ι) (seen : κ) (result : ρ) (serving : κ)
    (leaving : s.phase i = .leaving seen result) (alone : ∀ j, (s.phase j).busy = true → j = i) :
    Serial work {s.put i .idle with serving := serving} {h with served := h.served ++ [(i,result)]}
      (blocks ++ [tail]) [] := by
  have gone (j : ι) : ((s.put i .idle).phase j).busy = false := by
    rcases eq_or_ne j i with rfl | apart
    · rw [put_self]
      rfl
    · rw [put_other s i j _ apart]
      exact Bool.eq_false_iff.mpr fun busy => apart (alone j busy)
  refine ⟨?_,?_,fun _ => rfl,?_,?_⟩
  · simp [serial.log]
  · exact List.rel_append serial.served (.cons (serial.leaving i seen result leaving) .nil)
  · intro j state here
    have still := gone j
    change (s.put i .idle).phase j = .inside state at here
    rw [here] at still
    cases still
  · intro j seen result here
    have still := gone j
    change (s.put i .idle).phase j = .leaving seen result at here
    rw [here] at still
    cases still

/-- Threads whose loads do not overlap are served one after the other, in the order in
which they came; the counter may wrap as long as it has a number for each of them. -/
theorem run_serial [Fintype ι] (work : Work ω ε ρ) (next : κ → κ) (first : κ) (n : Nat)
    (apart : ∀ c, ∀ k < n, next^[k] c = c → k = 0) (few : Fintype.card ι ≤ n) (s : Gate ι κ ω ρ) (h : History ι ε ρ)
    (run : Run work next first False s h) :
    ∃ queue blocks tail, Queued next s queue ∧ h.arrivals = h.served.map Prod.fst ++ queue ∧
      Serial work s h blocks tail := by
  induction run with
  | start => exact ⟨[],[],[],queued_start next first,rfl,serial_start work first⟩
  | draw s h i run idle alone ih =>
    obtain ⟨queue,blocks,tail,queued,arrivals,serial⟩ := ih
    have drawn := queued.draw i idle (alone.resolve_left id)
    refine ⟨queue ++ [i],blocks,tail,drawn,?_,serial.outside i s.issuing _ _ (by rw [idle]; rfl) rfl⟩
    dsimp only
    rw [arrivals,List.append_assoc]
  | number s h i ticket run drawing ih =>
    obtain ⟨queue,blocks,tail,queued,arrivals,serial⟩ := ih
    exact ⟨queue,blocks,tail,queued.number i ticket drawing,arrivals,
      serial.outside i (next ticket) h.arrivals _ (by rw [drawing]; rfl) rfl⟩
  | enter s h i run waiting ih =>
    obtain ⟨queue,blocks,tail,queued,arrivals,serial⟩ := ih
    have entered := queued.enter n (apart s.serving) (queued.nodup.length_le_card.trans few) i work.start waiting
    obtain ⟨k,here⟩ := queued.place i (by rw [waiting]; exact fun same => by cases same)
    obtain rfl := entered.busy k i here (by rw [put_self]; rfl)
    have alone (j : ι) (busy : (s.phase j).busy = true) : j = i := by
      obtain ⟨l,there⟩ := queued.place j fun idle => by rw [idle] at busy; cases busy
      obtain rfl := queued.busy l j there busy
      exact Option.some.inj (there.symm.trans here)
    have nobody (j : ι) : (s.phase j).busy = false := by
      refine Bool.eq_false_iff.mpr fun busy => ?_
      rw [alone j busy,waiting] at busy
      cases busy
    refine ⟨queue,blocks,[],entered,arrivals,?_⟩
    have moved := serial.put i (.inside work.start) [] [] (serial.quiet nobody) alone rfl
      (fun later same => by cases same; rfl) (fun _ _ same => by cases same)
    simpa using moved
  | event s h i state later event run inside step ih =>
    obtain ⟨queue,blocks,tail,queued,arrivals,serial⟩ := ih
    obtain ⟨events,same,here⟩ := serial.inside i state inside
    have alone (j : ι) (busy : (s.phase j).busy = true) : j = i := queued.exclusive j i busy (by rw [inside]; rfl)
    refine ⟨queue,blocks,_,queued.work i state inside _ rfl (fun _ _ same => by cases same),arrivals,
      serial.put i (.inside later) events [event] same alone rfl ?_ (fun _ _ same => by cases same)⟩
    intro last same
    cases same
    exact work.after_snoc events state later event here step
  | leave s h i state result run inside done ih =>
    obtain ⟨queue,blocks,tail,queued,arrivals,serial⟩ := ih
    obtain ⟨events,same,here⟩ := serial.inside i state inside
    have alone (j : ι) (busy : (s.phase j).busy = true) : j = i := queued.exclusive j i busy (by rw [inside]; rfl)
    refine ⟨queue,blocks,events.map (Prod.mk i),queued.work i state inside _ rfl ?_,arrivals,?_⟩
    · intro seen result same
      cases same
      rfl
    · have moved := serial.put i (.leaving s.serving result) events [] same alone rfl (fun _ same => by cases same)
        (fun _ _ same => by cases same; exact ⟨state,by rw [List.append_nil]; exact here,done⟩)
      simpa using moved
  | pass s h i seen result run leaving ih =>
    obtain ⟨queue,blocks,tail,queued,arrivals,serial⟩ := ih
    obtain ⟨rest,rfl,passed⟩ := queued.pass i seen result leaving
    have alone (j : ι) (busy : (s.phase j).busy = true) : j = i := queued.exclusive j i busy (by rw [leaving]; rfl)
    refine ⟨rest,_,_,passed,?_,serial.pass i seen result _ leaving alone⟩
    dsimp only
    rw [arrivals,List.map_append,List.append_assoc]
    rfl

/-- The events of a thread that is inside. -/
theorem Run.events {next : κ → κ} {first : κ} {overlap : Prop} (run : Run work next first overlap s h) (i : ι)
    (state later : ω) (events : List ε) (inside : s.phase i = .inside state)
    (steps : events.foldlM work.step state = some later) :
    Run work next first overlap (s.put i (.inside later)) {h with log := h.log ++ events.map (Prod.mk i)} := by
  induction events generalizing s h state with
  | nil =>
    cases steps
    have same : s.put i (.inside later) = s := by
      rw [Gate.put,Function.update_eq_self_iff.mpr inside.symm]
    rw [same]
    simpa using run
  | cons event events ih =>
    rw [List.foldlM_cons] at steps
    obtain ⟨middle,step,rest⟩ := Option.bind_eq_some_iff.mp steps
    have more := ih (run.event s h i state middle event inside step) middle (put_self s i _) rest
    simpa [Gate.put,List.append_assoc] using more

end Blocks

end Craftsman.Stream.Turnstile
