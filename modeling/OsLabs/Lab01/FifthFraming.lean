import OsLabs.Lab01.Fifth

/-! What the reads of fifth.c return: the parent cuts the stream of both children by
the lengths of the messages, in the order of the children. -/

namespace OsLabs.Lab01.Fifth

/-- The child has written, or does not write any more. -/
def ChildPc.written : ChildPc → Bool
  | .close | .exited _ => true
  | _ => false

/-- The parent has waited for the child. -/
def MainPc.waited : MainPc → Fin 2 → Bool
  | .fork _, _ => false
  | .waitpid i, child => child < i
  | .close, _ | .read _, _ | .exited 0, _ => true
  | .exited _, _ => false

def lengths (messages : Fin 2 → Message) (done : List (Fin 2)) : List Nat :=
  done.map fun i => (messages i).text.length

/-- What has been written in all. -/
def stream (messages : Fin 2 → Message) (order : List (Fin 2)) : List UInt8 :=
  (order.map fun i => (messages i).text).flatten

/-- What holds in every state that is reached. -/
structure Consistent (messages : Fin 2 → Message) (events : List Event) (state : State) :
    Prop where
  nodup : (writers events).Nodup
  wrote : ∀ i ∈ writers events, (state.child i).pc.written = true
  unborn : ∀ i, state.main = .fork i → ∀ child, i ≤ child → (state.child child).pc = .unborn
  ended : ∀ i, state.main.waited i = true → ∃ status, (state.child i).pc = .exited status
  read : reads events = state.main.done.zip
    (Pipe.cut (lengths messages state.main.done) (stream messages (writers events)))
  left : state.pipe =
    (stream messages (writers events)).drop (lengths messages state.main.done).sum

variable {messages : Fin 2 → Message} {state after : State} {events emitted : List Event}

theorem mem_writers : i ∈ writers events ↔ .wrote i ∈ events := by
  unfold writers
  rw [List.mem_filterMap]
  constructor
  · rintro ⟨event, member, same⟩
    cases event with
    | wrote j =>
      obtain rfl := Option.some.inj same
      exact member
    | noSignal | perror | read => cases same
  · exact fun member => ⟨_, member, rfl⟩

theorem mem_reads : (i, bytes) ∈ reads events ↔ .read i bytes ∈ events := by
  unfold reads
  rw [List.mem_filterMap]
  constructor
  · rintro ⟨event, member, same⟩
    cases event with
    | read j read =>
      obtain ⟨rfl, rfl⟩ := Prod.mk.inj (Option.some.inj same)
      exact member
    | noSignal | perror | wrote => cases same
  · exact fun member => ⟨_, member, rfl⟩

@[simp] theorem writers_append (events emitted : List Event) :
    writers (events ++ emitted) = writers events ++ writers emitted :=
  List.filterMap_append

@[simp] theorem reads_append (events emitted : List Event) :
    reads (events ++ emitted) = reads events ++ reads emitted :=
  List.filterMap_append

theorem stream_append (messages : Fin 2 → Message) (order more : List (Fin 2)) :
    stream messages (order ++ more) = stream messages order ++ stream messages more := by
  simp [stream]

/-- Nothing has been read as long as a child has not been waited for. -/
theorem MainPc.done_of_not_waited {pc : MainPc} (waits : pc.waited i = false) :
    pc.done = [] := by
  unfold MainPc.done
  split
  · cases waits
  · cases waits
  · rfl

theorem consistent_init (messages : Fin 2 → Message) :
    Consistent messages [] (machine messages).init where
  nodup := .nil
  wrote i member := by simp [writers] at member
  unborn _ _ _ _ := rfl
  ended i waited := by cases waited
  read := rfl
  left := rfl

/-- Events that are neither a read nor a write. -/
theorem Consistent.silent (consistent : Consistent messages events state)
    (unwritten : writers emitted = []) (unread : reads emitted = []) :
    Consistent messages (events ++ emitted) state := by
  have order : writers (events ++ emitted) = writers events := by simp [unwritten]
  have cuts : reads (events ++ emitted) = reads events := by simp [unread]
  exact ⟨order ▸ consistent.nodup, order ▸ consistent.wrote, consistent.unborn, consistent.ended,
    order ▸ cuts ▸ consistent.read, order ▸ consistent.left⟩

/-- A step of the parent that reads nothing and forks nobody. -/
theorem Consistent.main (consistent : Consistent messages events state)
    (unforked : ∀ i, pc ≠ .fork i)
    (ended : ∀ i, pc.waited i = true → ∃ status, (state.child i).pc = .exited status)
    (same : pc.done = state.main.done) :
    Consistent messages events { state with main := pc } where
  nodup := consistent.nodup
  wrote := consistent.wrote
  unborn i here := absurd here (unforked i)
  ended := ended
  read := same ▸ consistent.read
  left := same ▸ consistent.left

/-- A step of a child that writes nothing, or a signal. -/
theorem Consistent.child (consistent : Consistent messages events state) (flag : Bool)
    (unborn : (state.child i).pc = .unborn → pc = .unborn)
    (written : (state.child i).pc.written = true → pc.written = true)
    (exited : ∀ status, (state.child i).pc = .exited status → pc = .exited status) :
    Consistent messages events
      { state with child := Function.update state.child i ⟨pc, flag⟩ } where
  nodup := consistent.nodup
  wrote j member := by
    have wrote := consistent.wrote j member
    by_cases same : j = i
    · subst same
      simpa using written wrote
    · simpa [same] using wrote
  unborn j here child later := by
    have before := consistent.unborn j here child later
    by_cases same : child = i
    · subst same
      simpa using unborn before
    · simpa [same] using before
  ended j waited := by
    obtain ⟨status, ended⟩ := consistent.ended j waited
    by_cases same : j = i
    · subst same
      exact ⟨status, by simpa using exited status ended⟩
    · exact ⟨status, by simpa [same] using ended⟩
  read := consistent.read
  left := consistent.left

theorem again_fork (i j : Fin 2) : (again i .fork (.waitpid 0)).waited j = false ∧
    (again i .fork (.waitpid 0) = .fork j → i < j) := by
  revert i j
  decide

theorem again_waitpid (i j : Fin 2) : again i .waitpid .close ≠ .fork j ∧
    ((again i .waitpid .close).waited j = true → j = i ∨ (MainPc.waitpid i).waited j = true) := by
  revert i j
  decide

theorem Consistent.fork (consistent : Consistent messages events state)
    (here : state.main = .fork i) :
    Consistent messages events { state with
      main := again i .fork (.waitpid 0)
      child := Function.update state.child i ⟨.test, state.flag⟩ } := by
  have unborn := consistent.unborn i here
  have unread : (again i .fork (.waitpid 0)).done = state.main.done := by
    rw [here]
    unfold again
    split <;> rfl
  refine ⟨consistent.nodup, fun j member => ?_, fun j there child later => ?_, fun j waited => ?_,
    unread ▸ consistent.read, unread ▸ consistent.left⟩
  · have wrote := consistent.wrote j member
    by_cases same : j = i
    · rw [same, unborn i (Nat.le_refl _)] at wrote
      cases wrote
    · simpa [same] using wrote
  · have next : i < child := Nat.lt_of_lt_of_le ((again_fork i j).2 there) later
    have different : child ≠ i := fun same => Nat.lt_irrefl _ (same ▸ next)
    simpa [different] using unborn child (Nat.le_of_lt next)
  · rw [(again_fork i j).1] at waited
    cases waited

/-- The child has not written before, and the parent waits for it before it reads. -/
theorem Consistent.write (consistent : Consistent messages events state)
    (here : (state.child i).pc = .write) :
    Consistent messages (events ++ [.wrote i]) { state with
      child := Function.update state.child i ⟨.close, (state.child i).flag⟩
      pipe := state.pipe ++ (messages i).array.take (strlen (messages i).array) } := by
  have order : writers (events ++ [.wrote i]) = writers events ++ [i] := writers_append _ _
  have cuts : reads (events ++ [.wrote i]) = reads events := by simp [reads, Event.read?]
  have fresh : i ∉ writers events := by
    intro member
    have wrote := consistent.wrote i member
    rw [here] at wrote
    cases wrote
  have waits : state.main.waited i = false := by
    rw [Bool.eq_false_iff]
    intro waited
    obtain ⟨status, ended⟩ := consistent.ended i waited
    rw [here] at ended
    cases ended
  have unread : state.main.done = [] := MainPc.done_of_not_waited waits
  refine ⟨?_, fun j member => ?_, fun j there child later => ?_, fun j waited => ?_, ?_, ?_⟩
  · rw [order]
    refine List.nodup_append.mpr ⟨consistent.nodup, by simp, fun j member k last => ?_⟩
    obtain rfl := List.mem_singleton.mp last
    exact fun same => fresh (same ▸ member)
  · rw [order, List.mem_append] at member
    by_cases same : j = i
    · simp [same, ChildPc.written]
    · have old : j ∈ writers events := member.resolve_right (by simpa using same)
      simpa [same] using consistent.wrote j old
  · have different : child ≠ i := by
      rintro rfl
      have unborn := consistent.unborn j there child later
      rw [here] at unborn
      cases unborn
    simpa [different] using consistent.unborn j there child later
  · have different : j ≠ i := by
      rintro rfl
      rw [waits] at waited
      cases waited
    simpa [different] using consistent.ended j waited
  · rw [cuts, consistent.read, unread]
    rfl
  · rw [order, stream_append, take_array, consistent.left, unread]
    simp [stream, lengths]

theorem again_read (i j : Fin 2) : again i .read (.exited 0) ≠ .fork j ∧
    (again i .read (.exited 0)).done = (MainPc.read i).done ++ [i] := by
  revert i j
  decide

/-- One more read. -/
theorem Consistent.take (consistent : Consistent messages events state)
    (here : state.main = .read i) :
    Consistent messages
      (events ++ [.read i (state.pipe.take (strlen (messages i).array))]) { state with
        main := again i .read (.exited 0)
        pipe := state.pipe.drop (strlen (messages i).array) } := by
  have order (bytes : List UInt8) : writers (events ++ [.read i bytes]) = writers events := by
    simp [writers, Event.writer?]
  have ended (j : Fin 2) : ∃ status, (state.child j).pc = .exited status :=
    consistent.ended j (by rw [here]; rfl)
  have cuts := consistent.read
  have left := consistent.left
  have done := (again_read i i).2
  rw [← here] at done
  have counts : lengths messages (again i .read (.exited 0)).done =
      lengths messages state.main.done ++ [(messages i).text.length] := by
    rw [done, lengths, List.map_append]
    rfl
  refine ⟨order _ ▸ consistent.nodup, order _ ▸ consistent.wrote,
    fun j there => absurd there (again_read i j).1, fun j _ => ended j, ?_, ?_⟩
  · have same : state.main.done.length = (Pipe.cut (lengths messages state.main.done)
        (stream messages (writers events))).length := by
      rw [Pipe.length_cut, lengths, List.length_map]
    rw [order, counts, Pipe.cut_append, done, List.zip_append same, ← cuts, reads_append, left,
      strlen_array]
    rfl
  · rw [order, counts, List.sum_append, ← List.drop_drop, ← left, strlen_array]
    simp

theorem Consistent.next (consistent : Consistent messages events state)
    (taken : (machine messages).next state action = some (after, emitted)) :
    Consistent messages (events ++ emitted) after := by
  cases next_effect taken with
  | fork here =>
    rw [List.append_nil]
    exact consistent.fork here
  | forkFailed here =>
    have unread : (MainPc.exited 1).done = state.main.done := by
      rw [here]
      rfl
    exact (consistent.main (fun i => MainPc.noConfusion) (fun i waited => by cases waited)
      unread).silent rfl rfl
  | @waitpid i status _ here ended =>
    rw [List.append_nil]
    refine consistent.main (fun j => (again_waitpid i j).1) (fun j waited => ?_) ?_
    · rcases (again_waitpid i j).2 waited with rfl | before
      · exact ⟨status, ended⟩
      · exact consistent.ended j (by rwa [here])
    · rw [here]
      unfold again
      split <;> rfl
  | close here =>
    rw [List.append_nil]
    refine consistent.main (fun j => MainPc.noConfusion) (fun j _ => ?_) (by rw [here]; rfl)
    exact consistent.ended j (by rw [here]; rfl)
  | read here => exact consistent.take here
  | child next =>
    rw [List.append_nil]
    refine consistent.child _ (fun unborn => ?_) (fun written => ?_) (fun status exited => ?_)
    · rw [unborn] at next
      cases next
    · generalize (state.child _).pc = pc at next written
      cases next with
      | exit => rfl
      | write | sleep | retest | woken => cases written
    · rw [exited] at next
      cases next
  | noSignal here unset =>
    refine (consistent.child _ (fun unborn => ?_) (fun written => rfl)
      (fun status exited => ?_)).silent rfl rfl
    · rw [here] at unborn
      cases unborn
    · rw [here] at exited
      cases exited
  | write here => exact consistent.write here
  | sigint child =>
    rw [List.append_nil]
    cases child with
    | none =>
      exact ⟨consistent.nodup, consistent.wrote, consistent.unborn, consistent.ended,
        consistent.read, consistent.left⟩
    | some i => exact consistent.child true id id fun _ => id

theorem consistent (run : (machine messages).Run allowed actions events state) :
    Consistent messages events state :=
  run.invariant (Consistent messages) (consistent_init messages)
    fun _ _ _ _ _ holds _ taken => holds.next taken

/-- The orders in which the children can have written. -/
theorem orders {order : List (Fin 2)} (nodup : order.Nodup) :
    order = [] ∨ order = [0] ∨ order = [1] ∨ order = [0, 1] ∨ order = [1, 0] := by
  match order with
  | [] => simp
  | [i] => revert i; decide
  | [i, j] => revert i j; decide
  | i :: j :: k :: rest =>
    simp only [List.nodup_cons, List.mem_cons, not_or] at nodup
    omega

/-- What the reads should return. -/
def wanted (messages : Fin 2 → Message) (order : List (Fin 2)) (i : Fin 2) : List UInt8 :=
  if i ∈ order then (messages i).text else []

/-- The cut of the stream is the wanted one for these orders only. -/
theorem cut_eq_iff (nodup : order.Nodup) :
    Pipe.cut (lengths messages [0, 1]) (stream messages order) =
      [wanted messages order 0, wanted messages order 1] ↔ Ordered messages order := by
  have both : Pipe.cut (lengths messages [0, 1])
      ((messages 0).text ++ (messages 1).text) = [(messages 0).text, (messages 1).text] := by
    simpa [lengths] using Pipe.cut_flatten [(messages 0).text, (messages 1).text]
  rcases orders nodup with rfl | rfl | rfl | rfl | rfl
  · refine iff_of_true ?_ (.inl (by simp))
    exact Pipe.cut_nil _
  · refine iff_of_true ?_ (.inl (by decide))
    simp [stream, lengths, wanted, Pipe.cut]
  · refine iff_of_false (fun same => ?_) (by simp [Ordered])
    have first : (messages 1).text.take (messages 0).text.length = [] := by
      simpa [stream, lengths, wanted, Pipe.cut] using (List.cons.inj same).1
    rcases List.take_eq_nil_iff.mp first with empty | empty
    · exact (messages 0).nonempty (List.length_eq_zero_iff.mp empty)
    · exact (messages 1).nonempty empty
  · exact iff_of_true (by simpa [stream, wanted] using both) (.inr (.inl rfl))
  · have content : stream messages [1, 0] = (messages 1).text ++ (messages 0).text := by
      simp [stream]
    have want : [wanted messages [1, 0] 0, wanted messages [1, 0] 1] =
        [(messages 0).text, (messages 1).text] := by simp [wanted]
    rw [content, want]
    constructor
    · intro same
      have joined := congrArg List.flatten same
      rw [Pipe.flatten_cut, List.take_of_length_le (by simp [lengths]; omega)] at joined
      exact .inr (.inr ⟨rfl, by simpa using joined.symm⟩)
    · rintro (absent | first | ⟨_, commute⟩)
      · simp at absent
      · cases first
      · rw [← commute]
        exact both

theorem framed_iff_reads : Framed messages events ↔
    ∀ i bytes, (i, bytes) ∈ reads events → bytes = wanted messages (writers events) i := by
  simp only [Framed, wanted, mem_reads, mem_writers]

theorem MainPc.done_cases (pc : MainPc) : pc.done = [] ∨ pc.done = [0] ∨ pc.done = [0, 1] := by
  unfold MainPc.done
  split
  · exact .inr (.inl rfl)
  · exact .inr (.inr rfl)
  · exact .inl rfl

/-- The reads return the messages if these are written in the order of the reads, and
when both have been made, in no other case. -/
theorem framed_iff (run : (machine messages).Run Machine.anything actions events state) :
    (Ordered messages (writers events) → Framed messages events) ∧
    (state.main = .exited 0 →
      (Framed messages events ↔ Ordered messages (writers events))) := by
  let content := stream messages (writers events)
  let first := content.take (messages 0).text.length
  let second := (content.drop (messages 0).text.length).take (messages 1).text.length
  have cuts := (consistent run).read
  have ordered : first = wanted messages (writers events) 0 ∧
      second = wanted messages (writers events) 1 ↔ Ordered messages (writers events) := by
    have cut : Pipe.cut (lengths messages [0, 1]) content = [first, second] := rfl
    rw [← cut_eq_iff (consistent run).nodup, cut]
    simp
  rw [← ordered, framed_iff_reads]
  constructor
  · rintro ⟨zero, one⟩ i bytes member
    rw [cuts] at member
    rcases state.main.done_cases with none | alone | both
    · simp [none] at member
    · obtain ⟨rfl, rfl⟩ : i = 0 ∧ bytes = first := by
        simpa [alone, lengths, Pipe.cut] using member
      exact zero
    · obtain ⟨rfl, rfl⟩ | ⟨rfl, rfl⟩ : (i = 0 ∧ bytes = first) ∨ i = 1 ∧ bytes = second := by
        simpa [both, lengths, Pipe.cut] using member
      · exact zero
      · exact one
  · intro ended
    have all : reads events = [(0, first), (1, second)] := by
      rw [cuts, ended]
      rfl
    simp [all]

/-- `{"111111", "222222222222"}`. -/
def sourceMessages : Fin 2 → Message
  | 0 => ⟨List.replicate 6 49, by decide, by decide, by decide⟩
  | 1 => ⟨List.replicate 12 50, by decide, by decide, by decide⟩

/-- Both children get a SIGINT, and write one after the other. -/
def writeBoth (first second : Fin 2) : List Action :=
  [.main true, .main true, .child first, .sigint (some first), .sigint (some second),
    .child first, .child first, .child second, .child first, .child second, .child first,
    .child second, .main true, .main true, .main true, .main true, .main true]

theorem framed_iff_zero_first : ∃ events state,
    (machine sourceMessages).Run Machine.anything (writeBoth 0 1) events state ∧
    state.main = .exited 0 ∧ .wrote 0 ∈ events ∧ .wrote 1 ∈ events ∧
    Framed sourceMessages events := by
  obtain ⟨events, state, run, seen⟩ : ∃ events state,
      (machine sourceMessages).Run Machine.anything (writeBoth 0 1) events state ∧
      (state.main, writers events) = (.exited 0, [0, 1]) :=
    Machine.Path.ofView (fun (state : State) events => (state.main, writers events)) _
      (fun _ _ _ => trivial) (by decide +kernel)
  obtain ⟨ended, order⟩ := Prod.mk.inj seen
  exact ⟨events, state, run, ended, mem_writers.mp (by simp [order]),
    mem_writers.mp (by simp [order]), (framed_iff run).1 (.inr (.inl order))⟩

/-- When child 1 writes first, the parent reads "222222" as the message of child 0,
and "222222111111" as that of child 1. -/
theorem one_first_not_framed : ∃ events state,
    (machine sourceMessages).Run Machine.anything (writeBoth 1 0) events state ∧
    events = [.wrote 1, .wrote 0, .read 0 (List.replicate 6 50),
      .read 1 (List.replicate 6 50 ++ List.replicate 6 49)] ∧
    ¬ Framed sourceMessages events := by
  obtain ⟨events, state, run, seen⟩ : ∃ events state,
      (machine sourceMessages).Run Machine.anything (writeBoth 1 0) events state ∧
      events = [.wrote 1, .wrote 0, .read 0 (List.replicate 6 50),
        .read 1 (List.replicate 6 50 ++ List.replicate 6 49)] :=
    Machine.Path.ofView (fun _ events => events) _ (fun _ _ _ => trivial) (by decide +kernel)
  refine ⟨events, state, run, seen, fun framed => ?_⟩
  have zero := framed 0 (List.replicate 6 50) (by simp [seen])
  rw [if_pos (by simp [seen])] at zero
  revert zero
  decide

end OsLabs.Lab01.Fifth
