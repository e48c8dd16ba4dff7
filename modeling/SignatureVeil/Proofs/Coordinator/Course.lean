import SignatureVeil.Proofs.Coordinator.Restyling

/-!
# The course of a coordinator

From its activation to its end a coordinator goes through one operation after
the other.  At every point between two of them, what is drawn is what the last
one that restyled would have drawn, and it is drawn with the one live style.
-/

namespace SignatureVeil

open Interaction

/-- The last restyling after an operation.  Nothing is left of it once the
coordinator has been deactivated. -/
def Episode.leaves (episode : Episode) (last : Option Restyling) :
    Option Restyling :=
  if episode.purpose = .finish then none else episode.restyling?.or last

/-- What the last operation that restyled did so for. -/
def lastRestyling? (episodes : List Episode) : Option Restyling :=
  episodes.foldl (fun last episode => episode.leaves last) none

theorem lastRestyling?_concat (episodes : List Episode) (episode : Episode) :
    lastRestyling? (episodes ++ [episode]) =
      episode.leaves (lastRestyling? episodes) := by
  simp [lastRestyling?]

/-- The calls of an editor in the course of some operations. -/
def callsOf (episodes : List Episode) : List EditorCall :=
  editorCalls (episodes.flatMap Episode.exchanges)

theorem callsOf_concat (episodes : List Episode) (episode : Episode) :
    callsOf (episodes ++ [episode]) =
      callsOf episodes ++ editorCalls episode.exchanges := by
  simp [callsOf, editorCalls_append]

/-- The operations of a coordinator since its activation, that one included,
and the coordinator itself.  There is none any more once its activation has
failed, its message loop has ended or it has been let go of. -/
inductive Course : List Episode → Option Coordinator → Prop where
  | failed {channel : ChannelId} {exchanges : List Exchange}
      {failure : Failure}
      (activated : (Coordinator.activate channel).Yields exchanges
        (.error failure)) :
      Course [⟨.finish, exchanges⟩] none
  | activated {channel : ChannelId} {exchanges : List Exchange}
      {coordinator : Coordinator}
      (activated : (Coordinator.activate channel).Yields exchanges
        (.ok coordinator)) :
      Course [⟨.hide, exchanges⟩] (some coordinator)
  | operated {episodes : List Episode} {exchanges : List Exchange}
      {coordinator changed : Coordinator}
      (course : Course episodes (some coordinator)) (operation : Operation)
      (operated : (operation.carryOut coordinator).Yields exchanges changed) :
      Course (episodes ++ [⟨operation.purpose, exchanges⟩]) (some changed)
  | served {episodes : List Episode} {exchanges : List Exchange}
      {coordinator : Coordinator} {holder : Option Coordinator}
      (course : Course episodes (some coordinator)) (message : Message)
      (served : (coordinator.serve message).Yields exchanges holder) :
      Course (episodes ++ [⟨message.purpose, exchanges⟩]) holder
  | dropped {episodes : List Episode} {exchanges : List Exchange}
      {coordinator changed : Coordinator}
      (course : Course episodes (some coordinator))
      (deactivated : coordinator.deactivate.Yields exchanges changed) :
      Course (episodes ++ [⟨.finish, exchanges⟩]) none

/-! ## Explaining what is drawn -/

/-- What an operation makes of the style in use.  To hide or to reveal it
restyles for the document that it reads, and to wait it leaves the style
alone.  To finish it gives the style back. -/
inductive Episode.Turns (style style' : Option StyleToken)
    (episode : Episode) : Prop where
  | renews (draws : episode.purpose = .hide ∨ episode.purpose = .reveal)
      (renews : Renews style style' episode.exchanges episode.restyling?)
  | waits (waiting : episode.purpose = .wait)
      (plain : Plain episode.exchanges) (same : style' = style)
  | clears (finished : episode.purpose = .finish)
      (clears : Clears style style' episode.exchanges)

/-- What is drawn is told by what the last operation that restyled had read,
and the style in use follows from it. -/
inductive Explained (calls : List EditorCall) :
    Option StyleToken → Option Restyling → Prop where
  | blank (undrawn : (Editor.after calls).drawn = []) :
      Explained calls none none
  | latest {token : StyleToken} {restyling : Restyling}
      (created : .createStyle token restyling.settings.style ∈ calls)
      (drawn : (Editor.after calls).drawn = restyling.displayed token) :
      Explained calls (some token) (some restyling)

section

variable {calls : List EditorCall} {style style' : Option StyleToken}
  {last restyling : Option Restyling} {exchanges : List Exchange}

theorem Explained.drawsOnlyWith (explained : Explained calls style last) :
    (Editor.after calls).DrawsOnlyWith style := by
  cases explained with
  | blank undrawn => simp [Editor.DrawsOnlyWith, undrawn]
  | latest _ drawn => exact Restyling.drawsOnlyWith drawn

theorem Explained.restyled (explained : Explained calls style last)
    (restyles : Restyles style style' exchanges restyling) :
    Explained (calls ++ editorCalls exchanges) style' (restyling.or last) := by
  cases restyles with
  | not plain same =>
      subst same
      cases explained with
      | blank undrawn => exact .blank ((plain.drawn_after _).trans undrawn)
      | latest created drawn =>
          exact .latest (List.mem_append_left _ created)
            ((plain.drawn_after _).trans drawn)
  | anew uses created draws =>
      subst uses
      exact .latest (List.mem_append_right _ created)
        (draws calls explained.drawsOnlyWith)

theorem Explained.cleared (explained : Explained calls style last)
    (clears : Clears style style' exchanges) :
    Explained (calls ++ editorCalls exchanges) style' none := by
  obtain ⟨rfl, blank⟩ := clears
  exact .blank (blank calls explained.drawsOnlyWith)

end

section

variable {episode : Episode} {style style' : Option StyleToken}

theorem Episode.restyling?_of_wait (waiting : episode.purpose = .wait) :
    episode.restyling? = none := by
  rw [Episode.restyling?, waiting]

theorem Episode.Turns.restyles (turns : episode.Turns style style')
    (unfinished : episode.purpose ≠ .finish) :
    Restyles style style' episode.exchanges episode.restyling? := by
  cases turns with
  | renews _ renews => exact renews.restyles
  | waits waiting plain same =>
      rw [Episode.restyling?_of_wait waiting]
      exact .not plain same
  | clears finished _ => exact absurd finished unfinished

theorem Episode.Turns.redraws (turns : episode.Turns style style')
    (draws : episode.purpose = .hide ∨ episode.purpose = .reveal) :
    Redraws episode.exchanges episode.restyling? := by
  cases turns with
  | renews _ renews => exact renews.redraws
  | waits other _ _ | clears other _ => simp [other] at draws

theorem Explained.turned {calls : List EditorCall} {last : Option Restyling}
    (explained : Explained calls style last)
    (turns : episode.Turns style style') :
    Explained (calls ++ editorCalls episode.exchanges) style'
      (episode.leaves last) := by
  rw [Episode.leaves]
  by_cases finished : episode.purpose = .finish
  · rw [if_pos finished]
    cases turns with
    | clears _ clears => exact explained.cleared clears
    | renews draws _ => simp [finished] at draws
    | waits waiting _ _ => simp [finished] at waiting
  · rw [if_neg finished]
    exact explained.restyled (turns.restyles finished)

/-- Without reading a document of the target language, or without acting on
it, an operation leaves alone what is drawn. -/
theorem Episode.Turns.drawn_after {calls : List EditorCall}
    (turns : episode.Turns style style') (unfinished : episode.purpose ≠ .finish)
    (restylesNot : episode.restyling? = none) :
    (Editor.after (calls ++ editorCalls episode.exchanges)).drawn =
      (Editor.after calls).drawn := by
  have restyles := turns.restyles unfinished
  rw [restylesNot] at restyles
  cases restyles with
  | not plain same => exact plain.drawn_after calls

end

/-! ## Each operation -/

section

variable {exchanges : List Exchange} {coordinator changed : Coordinator}
  {outcome : Outcome}

theorem turns_of_handle {message : Message} {more : List Exchange}
    (handled : (coordinator.handle message).Yields exchanges
      (changed, outcome)) (plain : Plain more) :
    Episode.Turns coordinator.visibility.style changed.visibility.style
      ⟨message.purpose, exchanges ++ more⟩ := by
  obtain ⟨lead, _, rest, logged, acting, rfl⟩ := handled.bind_inv
  have silent := silent_of_log logged
  have unread := silent.section?_eq_none
  cases message with
  | activeEditorChanged =>
      exact .renews (.inl rfl) ((hides_of_hideAndFold acting).renews lead more
        silent.plain unread plain)
  | command given =>
      cases given with
      | hideSignatures =>
          exact .renews (.inl rfl) ((hides_of_hideAndFold acting).renews lead
            more silent.plain unread plain)
      | showSignatures =>
          exact .renews (.inr rfl)
            (renews_of_showAndUnfold acting silent plain)
  | debounceElapsed =>
      exact .renews (.inl rfl) ((hides_of_hide acting).renews lead more
        silent.plain unread plain)
  | documentChanged =>
      obtain ⟨_, _, _, scheduled, ended, rfl⟩ := acting.bind_inv
      obtain ⟨rfl, ⟨⟩⟩ := ended.done_inv
      obtain ⟨plain', same⟩ :=
        scheduled.of_asks (plain_scheduleHide coordinator)
      rw [List.append_nil]
      exact .waits rfl ((silent.plain.append plain').append plain)
        (congrArg Visibility.style same)
  | shutdown => exact .clears rfl ((clears_of_handle handled).before plain)

theorem turns_of_carryOut {operation : Operation}
    (operated : (operation.carryOut coordinator).Yields exchanges changed) :
    Episode.Turns coordinator.visibility.style changed.visibility.style
      ⟨operation.purpose, exchanges⟩ := by
  have nothing : Plain [] := List.forall_mem_nil _
  cases operation with
  | handle message =>
      obtain ⟨_, ⟨after, outcome⟩, _, handled, ended, rfl⟩ :=
        operated.bind_inv
      obtain ⟨rfl, rfl⟩ := ended.done_inv
      exact turns_of_handle handled nothing
  | hideAndFold =>
      obtain ⟨_, ⟨after, outcome⟩, _, hidden, ended, rfl⟩ :=
        operated.bind_inv
      obtain ⟨rfl, rfl⟩ := ended.done_inv
      exact .renews (.inl rfl) ((hides_of_hideAndFold hidden).renews [] []
        nothing (List.forall_mem_nil _) nothing)
  | showAndUnfold =>
      obtain ⟨_, ⟨after, outcome⟩, _, revealed, ended, rfl⟩ :=
        operated.bind_inv
      obtain ⟨rfl, rfl⟩ := ended.done_inv
      have silent : Silent [] := List.forall_mem_nil _
      exact .renews (.inr rfl)
        (renews_of_showAndUnfold revealed silent nothing)
  | scheduleHide =>
      obtain ⟨plain, same⟩ := operated.of_asks (plain_scheduleHide coordinator)
      exact .waits rfl plain (congrArg Visibility.style same)
  | deactivate => exact .clears rfl (clears_of_deactivate operated)

theorem turns_of_serve {message : Message} {holder : Option Coordinator}
    (served : (coordinator.serve message).Yields exchanges holder) :
    Episode.Turns coordinator.visibility.style
      (holder.bind fun coordinator => coordinator.visibility.style)
      ⟨message.purpose, exchanges⟩ := by
  by_cases ends : message = .shutdown
  · subst ends
    rw [Coordinator.serve, if_pos rfl] at served
    obtain ⟨_, changed, _, deactivated, ended, rfl⟩ := served.bind_inv
    obtain ⟨rfl, rfl⟩ := ended.done_inv
    rw [List.append_nil]
    exact .clears rfl ⟨rfl, (clears_of_deactivate deactivated).blank⟩
  · rw [Coordinator.serve, if_neg ends] at served
    obtain ⟨_, ⟨changed, outcome⟩, rest, handled, noting, rfl⟩ :=
      served.bind_inv
    have notes : Silent rest ∧ holder = some changed := by
      cases outcome with
      | ok _ =>
          obtain ⟨rfl, rfl⟩ := noting.done_inv
          exact ⟨List.forall_mem_nil _, rfl⟩
      | error failure =>
          obtain ⟨_, _, _, logged, ended, rfl⟩ := noting.bind_inv
          obtain ⟨rfl, rfl⟩ := ended.done_inv
          rw [List.append_nil]
          exact ⟨silent_of_log logged, rfl⟩
    obtain ⟨silent, rfl⟩ := notes
    exact turns_of_handle handled silent.plain

theorem turns_of_activate {channel : ChannelId}
    (activated : (Coordinator.activate channel).Yields exchanges
      (.ok coordinator)) :
    Episode.Turns none coordinator.visibility.style ⟨.hide, exchanges⟩ := by
  obtain ⟨earlier, later, halfway, outcome, rfl, concluded, renews⟩ :=
    renews_of_activate activated
  obtain ⟨silent, rfl⟩ := silent_of_conclude concluded
  exact .renews (.inl rfl) (renews later silent)

/-- An activation that fails gives back the style that it may have made. -/
theorem turns_of_failed {channel : ChannelId} {failure : Failure}
    (activated : (Coordinator.activate channel).Yields exchanges
      (.error failure)) :
    Episode.Turns none none ⟨.finish, exchanges⟩ := by
  obtain ⟨earlier, later, halfway, outcome, rfl, concluded, renews⟩ :=
    renews_of_activate activated
  refine .clears rfl ⟨rfl, fun calls only => ?_⟩
  have hidden := (renews [] (List.forall_mem_nil _)).restyles
  rw [List.append_nil] at hidden
  rw [editorCalls_append, ← List.append_assoc]
  exact (clears_of_conclude concluded).blank _ (hidden.drawsOnlyWith only)

end

/-! ## The course as a whole -/

section

variable {episodes : List Episode} {holder : Option Coordinator}

/-- The style in use, if there is a coordinator that uses one. -/
def styleOf (holder : Option Coordinator) : Option StyleToken :=
  holder.bind fun coordinator => coordinator.visibility.style

/-- The style that is in use after some operations. -/
inductive Turned : List Episode → Option StyleToken → Prop where
  | nil : Turned [] none
  | concat {earlier : List Episode} {last : Episode}
      {style style' : Option StyleToken} (turned : Turned earlier style)
      (turns : last.Turns style style') : Turned (earlier ++ [last]) style'

theorem Course.turned (course : Course episodes holder) :
    Turned episodes (styleOf holder) := by
  induction course with
  | failed activated => exact Turned.nil.concat (turns_of_failed activated)
  | activated activated =>
      exact Turned.nil.concat (turns_of_activate activated)
  | operated _ _ operated ih => exact ih.concat (turns_of_carryOut operated)
  | served _ _ served ih => exact ih.concat (turns_of_serve served)
  | dropped _ deactivated ih =>
      have clears := clears_of_deactivate deactivated
      exact ih.concat (.clears rfl ⟨rfl, clears.blank⟩)

theorem Turned.explained {style : Option StyleToken}
    (turned : Turned episodes style) :
    Explained (callsOf episodes) style (lastRestyling? episodes) := by
  induction turned with
  | nil => exact .blank rfl
  | concat _ turns ih =>
      rw [callsOf_concat, lastRestyling?_concat]
      exact ih.turned turns

theorem Turned.redraws {style : Option StyleToken}
    (turned : Turned episodes style) :
    ∀ episode ∈ episodes,
      episode.purpose = .hide ∨ episode.purpose = .reveal →
        Redraws episode.exchanges episode.restyling? := by
  induction turned with
  | nil => exact List.forall_mem_nil _
  | concat _ turns ih =>
      exact List.forall_mem_append.mpr
        ⟨ih, List.forall_mem_singleton.mpr turns.redraws⟩

theorem Turned.exists_turns {earlier : List Episode} {last : Episode}
    {style' : Option StyleToken} (turned : Turned (earlier ++ [last]) style') :
    ∃ style, last.Turns style style' := by
  generalize whole : earlier ++ [last] = episodes at turned
  cases turned with
  | nil => simp at whole
  | concat _ turns =>
      obtain ⟨-, same⟩ := List.append_inj' whole rfl
      obtain rfl := List.singleton_inj.mp same
      exact ⟨_, turns⟩

/-! ## Live styles -/

theorem leads_serve {stage : TokenStage} {coordinator : Coordinator}
    (fits : Fits coordinator stage) (message : Message) :
    Leads (fun result last => styleOf result = last.token?)
      (coordinator.serve message) stage := by
  by_cases ends : message = .shutdown
  · rw [Coordinator.serve, if_pos ends]
    apply (leads_deactivate fits).bind
    rintro _ _ ⟨-, rfl⟩
    rfl
  · rw [Coordinator.serve, if_neg ends]
    apply (leads_handle fits message).bind
    rintro ⟨changed, failure | _⟩ middle fits'
    · apply (leads_of_light (asks_log _) middle).bind
      rintro - _ rfl
      exact fits'
    · exact fits'

/-- The calls in the course of some operations are in order, and the token in
use at their end is that of the coordinator. -/
theorem Course.exists_stage (course : Course episodes holder) :
    ∃ stage, TokenStage.absent.afterAll? (callsOf episodes) = some stage ∧
      styleOf holder = stage.token? := by
  have extend {earlier : List Episode} {last : Episode}
      {middle stage : TokenStage}
      (reached : TokenStage.absent.afterAll? (callsOf earlier) = some middle)
      (continued : middle.afterAll? (editorCalls last.exchanges) =
        some stage) :
      TokenStage.absent.afterAll? (callsOf (earlier ++ [last])) =
        some stage := by
    rw [callsOf_concat, TokenStage.afterAll?_append, reached]
    exact continued
  induction course with
  | failed activated =>
      obtain ⟨_, reached, rfl⟩ := (leads_activate _).yields activated
      exact ⟨.absent, by simpa [callsOf] using reached, rfl⟩
  | activated activated =>
      obtain ⟨stage, reached, fits⟩ := (leads_activate _).yields activated
      exact ⟨stage, by simpa [callsOf] using reached, fits⟩
  | operated _ operation operated ih =>
      obtain ⟨middle, reached, fits⟩ := ih
      obtain ⟨stage, continued, fits'⟩ :=
        (leads_carryOut fits operation).yields operated
      exact ⟨stage, extend reached continued, fits'⟩
  | served _ message served ih =>
      obtain ⟨middle, reached, fits⟩ := ih
      obtain ⟨stage, continued, fits'⟩ :=
        (leads_serve fits message).yields served
      exact ⟨stage, extend reached continued, fits'⟩
  | dropped _ deactivated ih =>
      obtain ⟨middle, reached, fits⟩ := ih
      obtain ⟨_, continued, -, rfl⟩ :=
        (leads_deactivate fits).yields deactivated
      exact ⟨.absent, extend reached continued, rfl⟩

/-- If every token that an editor creates is new, then between any two
operations what is drawn is told by the last one that restyled: it is drawn
with the one live token, whose style follows the settings that were read, and
it is the signatures in the text that was read, if that operation hid them and
hiding was enabled, and nothing otherwise.  Nothing is drawn and no token is
live before the first restyling and after a deactivation.  Every operation to
hide or to reveal reads a document and restyles for it if it is in the target
language, and an operation that has read no such document changes nothing. -/
theorem Course.drawn_by_last_restyling (course : Course episodes holder)
    (fresh : (createdTokens (callsOf episodes)).Nodup) :
    (match lastRestyling? episodes with
      | none => (Editor.after (callsOf episodes)).drawn = [] ∧
          liveTokens (callsOf episodes) = []
      | some restyling => ∃ token,
          liveTokens (callsOf episodes) = [token] ∧
            .createStyle token restyling.settings.style ∈ callsOf episodes ∧
            (Editor.after (callsOf episodes)).drawn =
              restyling.displayed token) ∧
      (holder = none → (Editor.after (callsOf episodes)).drawn = []) ∧
      (∀ episode ∈ episodes,
        episode.purpose = .hide ∨ episode.purpose = .reveal →
          Redraws episode.exchanges episode.restyling?) ∧
      ∀ earlier last, episodes = earlier ++ [last] →
        last.purpose ≠ .finish → last.restyling? = none →
          (Editor.after (callsOf episodes)).drawn =
            (Editor.after (callsOf earlier)).drawn := by
  have explained := course.turned.explained
  obtain ⟨stage, follows, holds⟩ := course.exists_stage
  have live := (TokenStage.accounts_of_afterAll? follows fresh).live
  rw [← holds] at live
  refine ⟨?_, ?_, course.turned.redraws, ?_⟩
  · generalize lastRestyling? episodes = last at explained
    generalize styleOf holder = style at explained live
    cases explained with
    | blank undrawn => exact ⟨undrawn, live⟩
    | latest created drawn => exact ⟨_, live, created, drawn⟩
  · rintro rfl
    exact (Explained.drawsOnlyWith explained).drawn_eq_nil
  · rintro earlier last rfl unfinished restylesNot
    obtain ⟨style, turns⟩ := course.turned.exists_turns
    rw [callsOf_concat]
    exact turns.drawn_after unfinished restylesNot

end

/-! ## A course among fixed answers -/

/-- The exchanges of an interaction all of whose requests are answered by one
rule, and its result. -/
def Interaction.transcript {α : Type}
    (answers : (request : Request) → request.Answer) :
    Interaction α → List Exchange × α
  | .done result => ([], result)
  | .ask request next =>
      let (rest, result) := (next (answers request)).transcript answers
      (⟨request, answers request⟩ :: rest, result)

theorem Interaction.yields_transcript {α : Type}
    (answers : (request : Request) → request.Answer)
    {interaction : Interaction α} {result : α}
    (ends : (interaction.transcript answers).2 = result) :
    interaction.Yields (interaction.transcript answers).1 result := by
  subst ends
  induction interaction with
  | done result => exact .done result
  | ask request next ih => exact .ask (ih (answers request))

/-- Answers with this document, without any settings, and with this number for
whatever is created. -/
def answering (shown : Document) (number : Nat) :
    (request : Request) → request.Answer
  | .document => some shown
  | .configuration _ => Json.null
  | .createStyle _ | .listen _ _ | .startTimer _ _ => number
  | .applyDecorations _ _ | .execute _ => Except.ok ()
  | .disposeStyle _ | .setSelections _ | .unlisten _ | .cancelTimer _
  | .log _ => ()

/-- After an edit the signature is drawn where it has gone, and a command to
show signatures in a document of another language changes nothing.  Each of the
three operations restyles for the document that it reads, or does not, as it
is in the target language or not. -/
theorem Course.drawn_by_last_restyling_edited :
    ∃ episodes coordinator, Course episodes (some coordinator) ∧
      (createdTokens (callsOf episodes)).Nodup ∧
      (∀ episode ∈ episodes,
        Redraws episode.exchanges episode.restyling?) ∧
      ∃ token, liveTokens (callsOf episodes) = [token] ∧
        .createStyle token Settings.default.style ∈ callsOf episodes ∧
        (Editor.after (callsOf episodes)).drawn =
          [(token, [⟨⟨1, 0⟩, ⟨1, 12⟩⟩])] := by
  have activated : (Coordinator.activate 0).Yields _ (.ok _) :=
    Interaction.yields_transcript
      (answering ⟨1, "ruby", "sig \x7b void \x7d", []⟩ 1) rfl
  have redrawn := (Course.activated activated).served .debounceElapsed
    (Interaction.yields_transcript
      (answering ⟨1, "ruby", "\nsig \x7b void \x7d", []⟩ 2) rfl)
  have course := redrawn.served (.command .showSignatures)
    (Interaction.yields_transcript (answering ⟨2, "python", "", []⟩ 3) rfl)
  obtain ⟨explained, -, redraws, -⟩ :=
    course.drawn_by_last_restyling (by decide +kernel)
  generalize whole : lastRestyling? _ = last at explained
  obtain rfl : some ⟨true, Settings.default,
      ⟨1, "ruby", "\nsig \x7b void \x7d", []⟩⟩ = last := whole
  obtain ⟨token, live, created, drawn⟩ := explained
  have ranges : Signature.ranges "\nsig \x7b void \x7d" =
      [⟨⟨1, 0⟩, ⟨1, 12⟩⟩] := by
    decide +kernel
  refine ⟨_, _, course, by decide +kernel,
    fun episode member => redraws episode member ?_, token, live, created,
    drawn.trans (congrArg (fun ranges => [(token, ranges)]) ranges)⟩
  obtain earlier | last := List.mem_append.mp member
  · obtain first | second := List.mem_append.mp earlier
    · obtain rfl := List.mem_singleton.mp first
      exact .inl rfl
    · obtain rfl := List.mem_singleton.mp second
      exact .inl rfl
  · obtain rfl := List.mem_singleton.mp last
    exact .inr rfl

end SignatureVeil
