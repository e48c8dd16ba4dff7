import Mathlib.Data.List.Basic
import SignatureVeil.Workspace.Basic

/-!
# Posting and taking messages

Posting to sinks appends to the queues of open channels and changes nothing
else that is of interest: no channel opens or closes, and the editor and the
agenda stay as they are.
-/

namespace SignatureVeil

namespace Workspace

variable {workspace : Workspace} {channel : ChannelId}

theorem isOpen_setQueue (workspace : Workspace) (other channel : ChannelId)
    (messages : List Message) :
    (workspace.setQueue other messages).isOpen channel =
      workspace.isOpen channel := by
  simp only [isOpen, setQueue, List.getElem?_modify]
  split <;> cases workspace.channels[channel]? <;> rfl

theorem queue_setQueue_self (isOpen : workspace.isOpen channel = true)
    (messages : List Message) :
    (workspace.setQueue channel messages).queue channel = messages := by
  simp only [Workspace.isOpen] at isOpen
  simp only [queue, setQueue, List.getElem?_modify]
  cases found : workspace.channels[channel]? with
  | none => simp [found] at isOpen
  | some channel => simp

theorem queue_setQueue_of_ne {other : ChannelId} (different : other ≠ channel)
    (messages : List Message) :
    (workspace.setQueue other messages).queue channel =
      workspace.queue channel := by
  simp only [queue, setQueue, List.getElem?_modify, different, if_false]
  cases workspace.channels[channel]? <;> rfl

/-- What is found in a list at whose end something has been added was there
before, or is what has been added. -/
theorem append_cons_eq_concat {α : Type} {items earlier later : List α}
    {added found : α} (same : items ++ [added] = earlier ++ found :: later) :
    (items = earlier ∧ added = found ∧ later = []) ∨
      ∃ between, items = earlier ++ found :: between ∧
        later = between ++ [added] := by
  rcases List.eq_nil_or_concat later with rfl | ⟨between, last, rfl⟩
  · obtain ⟨items, added⟩ := List.append_inj' same rfl
    exact .inl ⟨items, (List.cons.inj added).1, rfl⟩
  · rw [List.concat_eq_append] at same ⊢
    rw [← List.cons_append, ← List.append_assoc] at same
    obtain ⟨items, added⟩ := List.append_inj' same rfl
    exact .inr ⟨between, items, by rw [added]⟩

/-- Posting leaves everything but the queues as it is. -/
structure SameSurroundings (before after : Workspace) : Prop where
  editor : after.editor = before.editor
  agenda : after.agenda = before.agenda
  isOpen : ∀ channel, after.isOpen channel = before.isOpen channel

theorem SameSurroundings.trans {first second third : Workspace}
    (same : SameSurroundings first second)
    (same' : SameSurroundings second third) : SameSurroundings first third :=
  ⟨same'.editor.trans same.editor, same'.agenda.trans same.agenda,
    fun channel => (same'.isOpen channel).trans (same.isOpen channel)⟩

theorem wake_same (workspace : Workspace) (channel : ChannelId) :
    SameSurroundings workspace (workspace.wake channel) := by
  unfold wake
  split <;> exact ⟨rfl, rfl, fun _ => rfl⟩

theorem queue_wake (workspace : Workspace) (woken channel : ChannelId) :
    (workspace.wake woken).queue channel = workspace.queue channel := by
  unfold wake
  split <;> rfl

theorem emit_same (workspace : Workspace) (sink : Sink) :
    SameSurroundings workspace (workspace.emit sink).2 := by
  simp only [emit]
  split
  · have posted : SameSurroundings workspace (workspace.setQueue sink.channel
        (workspace.queue sink.channel ++ [sink.message])) :=
      ⟨rfl, rfl, fun channel => isOpen_setQueue _ _ _ _⟩
    exact posted.trans (wake_same _ _)
  · exact ⟨rfl, rfl, fun _ => rfl⟩

theorem emitAll_same (workspace : Workspace) (sinks : List Sink) :
    SameSurroundings workspace (workspace.emitAll sinks).2 := by
  induction sinks generalizing workspace with
  | nil => exact ⟨rfl, rfl, fun _ => rfl⟩
  | cons sink rest ih => exact (emit_same workspace sink).trans (ih _)

/-- The messages that some sinks post to a channel. -/
def messagesTo (channel : ChannelId) (sinks : List Sink) : List Message :=
  (sinks.filter fun sink => sink.channel = channel).map Sink.message

theorem queue_emit (isOpen : workspace.isOpen channel = true) (sink : Sink) :
    (workspace.emit sink).2.queue channel =
      workspace.queue channel ++ messagesTo channel [sink] := by
  by_cases here : sink.channel = channel
  · subst here
    simp only [emit, isOpen, if_true, queue_wake, queue_setQueue_self isOpen]
    simp [messagesTo]
  · simp only [emit]
    split
    · simp [queue_wake, queue_setQueue_of_ne here, messagesTo, here]
    · simp [messagesTo, here]

theorem queue_emitAll (isOpen : workspace.isOpen channel = true)
    (sinks : List Sink) :
    (workspace.emitAll sinks).2.queue channel =
      workspace.queue channel ++ messagesTo channel sinks := by
  induction sinks generalizing workspace with
  | nil => simp [emitAll, messagesTo]
  | cons sink rest ih =>
      have stillOpen : (workspace.emit sink).2.isOpen channel = true := by
        rw [(emit_same workspace sink).isOpen, isOpen]
      have split : messagesTo channel (sink :: rest) =
          messagesTo channel [sink] ++ messagesTo channel rest := by
        rw [messagesTo, messagesTo, messagesTo, ← List.map_append,
          ← List.filter_append]
        rfl
      rw [split, ← List.append_assoc, ← queue_emit isOpen]
      exact ih stillOpen

theorem mem_messagesTo {sinks : List Sink} {message : Message} :
    message ∈ messagesTo channel sinks ↔ ⟨message, channel⟩ ∈ sinks := by
  simp only [messagesTo, List.mem_map, List.mem_filter, decide_eq_true_eq]
  constructor
  · rintro ⟨⟨message, channel⟩, ⟨member, rfl⟩, rfl⟩
    exact member
  · intro member
    exact ⟨_, ⟨member, rfl⟩, rfl⟩

theorem messagesTo_map_sink (channel : ChannelId) (timers : List Timer) :
    messagesTo channel (timers.map Timer.sink) =
      (timers.filter fun timer => timer.sink.channel = channel).map
        fun timer => timer.sink.message := by
  rw [messagesTo, List.filter_map, List.map_map]
  rfl

/-- Timers that fire are gone, and have posted their messages. -/
theorem fireTimers_spec (workspace : Workspace) :
    workspace.fireTimers.editor = workspace.editor ∧
      workspace.fireTimers.agenda = workspace.agenda.clearDue ∧
      (∀ channel, workspace.fireTimers.isOpen channel =
        workspace.isOpen channel) ∧
      ∀ channel, workspace.isOpen channel = true →
        workspace.fireTimers.queue channel = workspace.queue channel ++
          messagesTo channel (workspace.agenda.due.map Timer.sink) := by
  have same := emitAll_same
    { workspace with agenda := workspace.agenda.clearDue }
    (workspace.agenda.due.map Timer.sink)
  refine ⟨same.editor, same.agenda, same.isOpen, fun channel isOpen => ?_⟩
  have cleared : ({ workspace with agenda := workspace.agenda.clearDue } :
      Workspace).isOpen channel = true := isOpen
  exact queue_emitAll cleared _

theorem take?_eq_some {message : Message} {later : Workspace}
    (isOpen : workspace.isOpen channel = true)
    (taken : workspace.take? channel = some (message, later)) :
    SameSurroundings workspace later ∧
      workspace.queue channel = message :: later.queue channel := by
  unfold take? at taken
  split at taken
  · contradiction
  · rename_i first rest queued
    obtain ⟨rfl, rfl⟩ := Prod.mk.inj (Option.some.inj taken)
    refine ⟨⟨rfl, rfl, fun other => isOpen_setQueue _ _ _ _⟩, ?_⟩
    rw [queue_setQueue_self isOpen, queued]

end Workspace

end SignatureVeil
