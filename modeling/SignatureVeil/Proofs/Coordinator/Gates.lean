import SignatureVeil.Proofs.Coordinator.Course
import SignatureVeil.Proofs.Coordinator.Watching

/-!
# Gates before every call

A coordinator makes no visible change without having read a document of the
target language, and neither draws nor selects nor commands anything unless
the settings that it read last enable hiding.  The blocks are folded only in
one sequence of calls, which nothing interrupts but the failure of a command.
-/

namespace SignatureVeil

/-- Whether a request concerns styles, decorations, selections or commands. -/
def Request.IsEffect : Request → Prop
  | .createStyle _ | .disposeStyle _ | .applyDecorations _ _
  | .setSelections _ | .execute _ => True
  | _ => False

/-- Whether a request draws, selects or commands. -/
def Request.IsDisplay : Request → Prop
  | .applyDecorations _ _ | .setSelections _ | .execute _ => True
  | _ => False

/-- The document that was read last, if it is in the target language. -/
def lastTarget? (exchanges : List Exchange) : Option Document :=
  targetRead? exchanges.reverse

/-- The settings that were read last. -/
def lastSettings? (exchanges : List Exchange) : Option Settings :=
  settingsRead? exchanges.reverse

theorem lastTarget?_concat (exchanges : List Exchange) (exchange : Exchange) :
    lastTarget? (exchanges ++ [exchange]) =
      match exchange.shown? with
      | some shown => shown.filter Document.isTarget
      | none => lastTarget? exchanges := by
  simp only [lastTarget?, targetRead?, List.reverse_append,
    List.reverse_singleton, List.singleton_append, List.findSome?_cons]
  cases exchange.shown? <;> rfl

theorem lastSettings?_concat (exchanges : List Exchange)
    (exchange : Exchange) :
    lastSettings? (exchanges ++ [exchange]) =
      match exchange.section? with
      | some answer => some (Settings.ofSection answer).1
      | none => lastSettings? exchanges := by
  simp only [lastSettings?, settingsRead?, List.reverse_append,
    List.reverse_singleton, List.singleton_append, List.findSome?_cons]
  cases exchange.section? <;> rfl

theorem Request.IsUnnoticed.unread {exchange : Exchange}
    (unnoticed : exchange.request.IsUnnoticed) :
    exchange.shown? = none ∧ exchange.section? = none := by
  obtain ⟨request, answer⟩ := exchange
  cases request <;> first | exact ⟨rfl, rfl⟩ | exact unnoticed.elim

/-! ## What is kept in mind -/

namespace Watch

variable {first middle last : Watch} {earlier later exchanges : List Exchange}
  {exchange : Exchange}

theorem Follows.append_inv (follows : first.Follows (earlier ++ later) last) :
    ∃ middle, first.Follows earlier middle ∧ middle.Follows later last := by
  induction earlier generalizing first with
  | nil => exact ⟨first, .nil first, follows⟩
  | cons exchange earlier ih =>
      cases follows with
      | cons sees follows =>
          obtain ⟨middle, reached, goesOn⟩ := ih follows
          exact ⟨middle, .cons sees reached, goesOn⟩

theorem Follows.split_inv
    (follows : first.Follows (earlier ++ exchange :: later) last) :
    ∃ middle next, first.Follows earlier middle ∧
      middle.Sees exchange next ∧ next.Follows later last := by
  obtain ⟨middle, reached, goesOn⟩ := follows.append_inv
  cases goesOn with
  | cons sees goesOn => exact ⟨middle, _, reached, sees, goesOn⟩

theorem Follows.concat_inv (follows : first.Follows (earlier ++ [exchange]) last) :
    ∃ middle, first.Follows earlier middle ∧ middle.Sees exchange last := by
  obtain ⟨middle, next, reached, sees, ends⟩ := follows.split_inv
  cases ends
  exact ⟨middle, reached, sees⟩

theorem Sees.target_eq (sees : first.Sees exchange last) :
    last.reading.target =
      match exchange.shown? with
      | some shown => shown.filter Document.isTarget
      | none => first.reading.target := by
  cases sees with
  | unnoticed unnoticed => rw [unnoticed.unread.1]
  | _ => rfl

theorem Sees.enabled_eq (sees : first.Sees exchange last) :
    last.reading.enabled =
      match exchange.section? with
      | some answer => (Settings.ofSection answer).1.enabled
      | none => first.reading.enabled := by
  cases sees with
  | settings reading answer => rw [Exchange.section?_configuration]
  | unnoticed unnoticed => rw [unnoticed.unread.2]
  | _ => rfl

/-- Only a style is given back without a target, and then for good. -/
theorem Sees.exists_target (sees : first.Sees exchange last)
    (effect : exchange.request.IsEffect) :
    (∃ document, first.reading.target = some document) ∨
      (∃ token, exchange.request = .disposeStyle token) ∧
        last.reading.clears = true := by
  cases sees with
  | document | settings => exact effect.elim
  | unnoticed unnoticed =>
      obtain ⟨request, answer⟩ := exchange
      cases request <;> first | exact unnoticed.elim | exact effect.elim
  | dispose reading token =>
      cases target : reading.target with
      | some document => exact .inl ⟨document, rfl⟩
      | none => exact .inr ⟨⟨token, rfl⟩, by simp⟩
  | create target | draw target | reveal target | select target
  | unfold target | unfoldFails target | fold target | foldFails target
  | restore target => exact .inl ⟨_, target⟩

theorem Sees.enabled_of_display (sees : first.Sees exchange last)
    (display : exchange.request.IsDisplay) :
    first.reading.enabled = true := by
  cases sees with
  | unnoticed unnoticed =>
      obtain ⟨request, answer⟩ := exchange
      cases request <;> first | exact unnoticed.elim | exact display.elim
  | draw _ enabled | reveal _ enabled | select _ enabled
  | unfold _ enabled | unfoldFails _ enabled | fold _ enabled
  | foldFails _ enabled | restore _ enabled => exact enabled
  | _ => exact display.elim

theorem Follows.target_eq (follows : Follows {} exchanges last) :
    last.reading.target = lastTarget? exchanges := by
  induction exchanges using List.reverseRecOn generalizing last with
  | nil =>
      cases follows
      rfl
  | append_singleton earlier exchange ih =>
      obtain ⟨middle, reached, sees⟩ := follows.concat_inv
      rw [sees.target_eq, lastTarget?_concat, ih reached]

theorem Follows.enabled_eq (follows : Follows {} exchanges last) :
    last.reading.enabled = (lastSettings? exchanges).any Settings.enabled := by
  induction exchanges using List.reverseRecOn generalizing last with
  | nil =>
      cases follows
      rfl
  | append_singleton earlier exchange ih =>
      obtain ⟨middle, reached, sees⟩ := follows.concat_inv
      rw [sees.enabled_eq, lastSettings?_concat, ih reached]
      cases exchange.section? <;> rfl

theorem Follows.clears_of_clears (follows : first.Follows exchanges last)
    (clears : first.reading.clears = true) : last.reading.clears = true := by
  induction follows with
  | nil => exact clears
  | cons sees _ ih =>
      apply ih
      cases sees with
      | dispose reading token => simp [show reading.clears = true from clears]
      | _ => exact clears

/-- Folding that is under way has been begun by the exchange before. -/
theorem Follows.exists_concat (follows : Follows {} exchanges last)
    (under : last.phase ≠ .apart) :
    ∃ earlier exchange middle, exchanges = earlier ++ [exchange] ∧
      Follows {} earlier middle ∧ middle.Sees exchange last := by
  rcases exchanges.eq_nil_or_concat with rfl | ⟨earlier, exchange, rfl⟩
  · cases follows
    exact absurd rfl under
  · rw [List.concat_eq_append] at follows ⊢
    obtain ⟨middle, reached, sees⟩ := follows.concat_inv
    exact ⟨earlier, exchange, middle, rfl, reached, sees⟩

theorem Follows.of_unfolded {reading : Reading}
    (follows : Follows {} exchanges ⟨reading, .unfolded⟩) :
    ∃ lead document, lastTarget? lead = some document ∧
      reading.target = some document ∧ document.foldTargets ≠ [] ∧
      exchanges = lead ++ [⟨.setSelections document.foldTargets, ()⟩,
        ⟨.execute .unfoldAll, Except.ok ()⟩] := by
  obtain ⟨earlier, _, _, rfl, reached, sees⟩ := follows.exists_concat nofun
  cases sees with
  | unfold =>
      obtain ⟨lead, _, _, rfl, reached, sees⟩ := reached.exists_concat nofun
      cases sees with
      | select target _ blocks =>
          exact ⟨lead, _, reached.target_eq.symm.trans target, target, blocks,
            by simp⟩

theorem Follows.of_folded {reading : Reading}
    (follows : Follows {} exchanges ⟨reading, .folded⟩) :
    ∃ lead, exchanges = lead ++ [⟨.execute .fold, Except.ok ()⟩] := by
  obtain ⟨lead, _, _, rfl, -, sees⟩ := follows.exists_concat nofun
  cases sees
  exact ⟨lead, rfl⟩

/-- Folding that is under way goes on. -/
theorem Follows.exists_cons (follows : first.Follows exchanges last)
    (under : first.phase ≠ .apart) (apart : last.phase = .apart) :
    ∃ exchange middle rest, exchanges = exchange :: rest ∧
      first.Sees exchange middle ∧ middle.Follows rest last := by
  cases follows with
  | nil => exact absurd apart under
  | cons sees follows => exact ⟨_, _, _, rfl, sees, follows⟩

theorem Follows.from_folded {reading : Reading} {document : Document}
    (target : reading.target = some document) (apart : last.phase = .apart)
    (follows : Follows ⟨reading, .folded⟩ exchanges last) :
    ∃ rest, exchanges =
      ⟨.setSelections [document.primarySelection], ()⟩ :: rest := by
  obtain ⟨_, _, rest, rfl, sees, -⟩ := follows.exists_cons nofun apart
  cases sees with
  | restore target' =>
      obtain rfl := Option.some.inj (target.symm.trans target')
      exact ⟨rest, rfl⟩

theorem Follows.from_selected {reading : Reading} (apart : last.phase = .apart)
    (follows : Follows ⟨reading, .selected⟩ exchanges last) :
    (∃ failure rest, exchanges =
        ⟨.execute .unfoldAll, Except.error failure⟩ :: rest) ∨
      ∃ outcome rest, exchanges = ⟨.execute .unfoldAll, Except.ok ()⟩ ::
        ⟨.execute .fold, outcome⟩ :: rest := by
  obtain ⟨_, _, rest, rfl, sees, goesOn⟩ := follows.exists_cons nofun apart
  cases sees with
  | unfold =>
      obtain ⟨_, _, rest, rfl, sees, -⟩ := goesOn.exists_cons nofun apart
      cases sees <;> exact .inr ⟨_, rest, rfl⟩
  | unfoldFails _ _ failure => exact .inl ⟨failure, rest, rfl⟩

end Watch

/-! ## Orderly operations -/

/-- What an operation does only after it has read the right document and
settings, and what stands next to what when it folds. -/
structure Episode.Orderly (episode : Episode) : Prop where
  /-- Nothing visible is done without a target, except that the style is given
  back at the end. -/
  target : ∀ earlier exchange later,
    episode.exchanges = earlier ++ exchange :: later →
    exchange.request.IsEffect →
    (∃ document, lastTarget? earlier = some document) ∨
      episode.purpose = .finish ∧ ∃ token,
        exchange.request = .disposeStyle token
  /-- Nothing is drawn, selected or commanded unless hiding is enabled. -/
  enabled : ∀ earlier exchange later,
    episode.exchanges = earlier ++ exchange :: later →
    exchange.request.IsDisplay →
    ∃ settings, lastSettings? earlier = some settings ∧
      settings.enabled = true
  /-- The blocks have just been selected and everything unfolded, and if
  folding succeeds, the selection of the user is put back at once. -/
  fold : ∀ earlier outcome later,
    episode.exchanges = earlier ++ ⟨.execute .fold, outcome⟩ :: later →
    ∃ lead document, lastTarget? lead = some document ∧
      document.foldTargets ≠ [] ∧
      earlier = lead ++ [⟨.setSelections document.foldTargets, ()⟩,
        ⟨.execute .unfoldAll, Except.ok ()⟩] ∧
      (outcome = .ok () → ∃ rest,
        later = ⟨.setSelections [document.primarySelection], ()⟩ :: rest)
  /-- Selections are made to fold or have been folded with. -/
  selections : ∀ earlier selections later,
    episode.exchanges = earlier ++ ⟨.setSelections selections, ()⟩ :: later →
    ∃ document, lastTarget? earlier = some document ∧
      (selections = document.foldTargets ∧ document.foldTargets ≠ [] ∧
          ((∃ failure rest, later =
              ⟨.execute .unfoldAll, Except.error failure⟩ :: rest) ∨
            ∃ outcome rest, later = ⟨.execute .unfoldAll, Except.ok ()⟩ ::
              ⟨.execute .fold, outcome⟩ :: rest) ∨
        selections = [document.primarySelection] ∧
          ∃ lead, earlier = lead ++ [⟨.execute .fold, Except.ok ()⟩])

open Watch in
theorem Episode.orderly_of_follows {episode : Episode} {last : Watch}
    (follows : Follows {} episode.exchanges last)
    (ends : episode.purpose.Ends {} last) : episode.Orderly where
  target := by
    rintro earlier exchange later whole effect
    rw [whole] at follows
    obtain ⟨middle, next, reached, sees, goesOn⟩ := follows.split_inv
    rw [← reached.target_eq]
    rcases sees.exists_target effect with target | ⟨disposes, clears⟩
    · exact .inl target
    · refine .inr ⟨?_, disposes⟩
      by_contra unfinished
      have clearing := goesOn.clears_of_clears clears
      rw [ends.2 unfinished] at clearing
      contradiction
  enabled := by
    rintro earlier exchange later whole display
    rw [whole] at follows
    obtain ⟨middle, next, reached, sees, -⟩ := follows.split_inv
    have enabled := sees.enabled_of_display display
    rw [reached.enabled_eq] at enabled
    cases read : lastSettings? earlier with
    | none => simp [read] at enabled
    | some settings => exact ⟨settings, rfl, by simpa [read] using enabled⟩
  fold := by
    rintro earlier outcome later whole
    rw [whole] at follows
    obtain ⟨middle, next, reached, sees, goesOn⟩ := follows.split_inv
    cases sees with
    | unnoticed unnoticed => exact unnoticed.elim
    | fold =>
        obtain ⟨lead, document, read, target, blocks, rfl⟩ :=
          reached.of_unfolded
        exact ⟨lead, document, read, blocks, rfl,
          fun _ => goesOn.from_folded target ends.1⟩
    | foldFails =>
        obtain ⟨lead, document, read, -, blocks, rfl⟩ := reached.of_unfolded
        exact ⟨lead, document, read, blocks, rfl, nofun⟩
  selections := by
    rintro earlier selections later whole
    rw [whole] at follows
    obtain ⟨middle, next, reached, sees, goesOn⟩ := follows.split_inv
    cases sees with
    | unnoticed unnoticed => exact unnoticed.elim
    | select target _ blocks =>
        exact ⟨_, reached.target_eq.symm.trans target,
          .inl ⟨rfl, blocks, goesOn.from_selected ends.1⟩⟩
    | restore target =>
        exact ⟨_, reached.target_eq.symm.trans target,
          .inr ⟨rfl, reached.of_folded⟩⟩

namespace Episode.Orderly

variable {episode : Episode}

/-- While no document of the target language is shown, nothing visible is
done. -/
theorem idle (orderly : episode.Orderly)
    (other : ∀ exchange ∈ episode.exchanges, ∀ document : Document,
      exchange.shown? = some (some document) →
      document.language ≠ targetLanguage) :
    ∀ exchange ∈ episode.exchanges, exchange.request.IsEffect →
      episode.purpose = .finish ∧ ∃ token,
        exchange.request = .disposeStyle token := by
  intro exchange member effect
  obtain ⟨earlier, later, whole⟩ := List.append_of_mem member
  rcases orderly.target earlier exchange later whole effect with
    ⟨document, read⟩ | finishes
  · obtain ⟨joined, isTarget⟩ := Option.filter_eq_some_iff.mp read
    obtain ⟨reading, before, shown⟩ :=
      List.exists_of_findSome?_eq_some (Option.join_eq_some_iff.mp joined)
    have member : reading ∈ episode.exchanges := by
      rw [whole]
      exact List.mem_append_left _ (List.mem_reverse.mp before)
    exact absurd (of_decide_eq_true isTarget)
      (other reading member document shown)
  · exact finishes

/-- While hiding is disabled, nothing is drawn, selected or commanded. -/
theorem undrawn (orderly : episode.Orderly)
    (disabled : ∀ exchange ∈ episode.exchanges, ∀ answer,
      exchange.section? = some answer →
      (Settings.ofSection answer).1.enabled = false) :
    ∀ exchange ∈ episode.exchanges, ¬ exchange.request.IsDisplay := by
  intro exchange member display
  obtain ⟨earlier, later, whole⟩ := List.append_of_mem member
  obtain ⟨settings, read, enabled⟩ :=
    orderly.enabled earlier exchange later whole display
  obtain ⟨answer, found, rfl⟩ := Option.map_eq_some_iff.mp read
  obtain ⟨reading, before, isSection⟩ := List.exists_of_findSome?_eq_some found
  have member : reading ∈ episode.exchanges := by
    rw [whole]
    exact List.mem_append_left _ (List.mem_reverse.mp before)
  rw [disabled reading member answer isSection] at enabled
  contradiction

end Episode.Orderly

/-! ## Calls in order -/

/-- Every fold is called for next to the selection of its blocks, and every
selection next to a command. -/
structure OrderlyCalls (calls : List EditorCall) : Prop where
  fold : ∀ earlier later, calls = earlier ++ .execute .fold :: later →
    ∃ lead targets, targets ≠ [] ∧
      earlier = lead ++ [.setSelections targets, .execute .unfoldAll]
  selections : ∀ earlier selections later,
    calls = earlier ++ .setSelections selections :: later →
    (∃ rest, later = .execute .unfoldAll :: rest) ∨
      ∃ lead, earlier = lead ++ [.execute .fold]

theorem callsOf_cons (episode : Episode) (episodes : List Episode) :
    callsOf (episode :: episodes) =
      editorCalls episode.exchanges ++ callsOf episodes := by
  simp [callsOf, editorCalls_append]

/-- Every call is made by an exchange of some operation. -/
theorem exists_episode_of_callsOf {episodes : List Episode}
    {earlier later : List EditorCall} {call : EditorCall}
    (whole : callsOf episodes = earlier ++ call :: later) :
    ∃ episode ∈ episodes, ∃ front lead exchange rest back,
      episode.exchanges = lead ++ exchange :: rest ∧
      exchange.call? = some call ∧ earlier = front ++ editorCalls lead ∧
      later = editorCalls rest ++ back := by
  induction episodes generalizing earlier with
  | nil => simp [callsOf, editorCalls] at whole
  | cons episode episodes ih =>
      rw [callsOf_cons] at whole
      have among (more : List EditorCall)
          (here : earlier = editorCalls episode.exchanges ++ more)
          (there : callsOf episodes = more ++ call :: later) :
          ∃ episode' ∈ episode :: episodes, ∃ front lead exchange rest back,
            episode'.exchanges = lead ++ exchange :: rest ∧
            exchange.call? = some call ∧
            earlier = front ++ editorCalls lead ∧
            later = editorCalls rest ++ back := by
        obtain ⟨found, member, front, lead, exchange, rest, back, split,
          calls, rfl, ends⟩ := ih there
        exact ⟨found, .tail _ member, _, lead, exchange, rest, back, split,
          calls, by rw [here, List.append_assoc], ends⟩
      rcases List.append_eq_append_iff.mp whole with
        ⟨more, here, rest⟩ | ⟨more, here, rest⟩
      · exact among more here rest
      · cases more with
        | nil => exact among [] (by simp [here]) (by simp [rest])
        | cons first more =>
            obtain ⟨rfl, rfl⟩ := List.cons.inj rest
            obtain ⟨lead, tail, split, before, behind⟩ :=
              List.filterMap_eq_append_iff.mp here
            obtain ⟨silent, exchange, after, rfl, quiet, calls, behind⟩ :=
              List.filterMap_eq_cons_iff.mp behind
            refine ⟨episode, .head _, [], lead ++ silent, exchange, after,
              callsOf episodes, by simp [split], calls, ?_, ?_⟩
            · rw [← before, List.nil_append, editorCalls_append,
                show editorCalls silent = [] from
                  List.filterMap_eq_nil_iff.mpr quiet, List.append_nil]
              rfl
            · rw [← behind]
              rfl

theorem orderlyCalls_of_orderly {episodes : List Episode}
    (orderly : ∀ episode ∈ episodes, episode.Orderly) :
    OrderlyCalls (callsOf episodes) where
  fold := by
    intro earlier later whole
    obtain ⟨episode, member, front, lead, ⟨request, answer⟩, rest, back, split,
      calls, rfl, -⟩ := exists_episode_of_callsOf whole
    cases request with
    | execute command =>
        obtain rfl : command = .fold := by simpa [Exchange.call?] using calls
        obtain ⟨lead, document, -, blocks, rfl, -⟩ :=
          (orderly episode member).fold lead answer rest split
        refine ⟨front ++ editorCalls lead, _, blocks, ?_⟩
        rw [editorCalls_append, List.append_assoc]
        rfl
    | _ => simp [Exchange.call?] at calls
  selections := by
    intro earlier selections later whole
    obtain ⟨episode, member, front, lead, ⟨request, answer⟩, rest, back, split,
      calls, rfl, rfl⟩ := exists_episode_of_callsOf whole
    cases request with
    | setSelections made =>
        obtain rfl : made = selections := by simpa [Exchange.call?] using calls
        obtain ⟨document, -, ⟨-, -, goesOn⟩ | ⟨-, lead, rfl⟩⟩ :=
          (orderly episode member).selections lead made rest split
        · left
          rcases goesOn with ⟨failure, rest, rfl⟩ | ⟨outcome, rest, rfl⟩ <;>
            exact ⟨_, rfl⟩
        · right
          refine ⟨front ++ editorCalls lead, ?_⟩
          rw [editorCalls_append, List.append_assoc]
          rfl
    | _ => simp [Exchange.call?] at calls

/-! ## The course as a whole -/

theorem Course.follows {episodes : List Episode}
    {holder : Option Coordinator} (course : Course episodes holder) :
    ∀ episode ∈ episodes, ∃ last,
      Watch.Follows {} episode.exchanges last ∧
        episode.purpose.Ends {} last := by
  induction course with
  | failed activated =>
      exact List.forall_mem_singleton.mpr
        ((obeys_activate _ _).yields activated)
  | activated activated =>
      exact List.forall_mem_singleton.mpr
        ((obeys_activate _ _).yields activated)
  | operated _ operation operated ih =>
      exact List.forall_mem_append.mpr ⟨ih, List.forall_mem_singleton.mpr
        ((obeys_carryOut operation _).yields operated)⟩
  | served _ message served ih =>
      exact List.forall_mem_append.mpr ⟨ih, List.forall_mem_singleton.mpr
        ((obeys_serve message _).yields served)⟩
  | dropped _ deactivated ih =>
      exact List.forall_mem_append.mpr ⟨ih, List.forall_mem_singleton.mpr
        ((obeys_finish _).yields deactivated)⟩

/-- In every course each operation keeps to its gates.  While no document of
the target language is shown it does nothing visible, except that the style is
given back at the end, and while hiding is disabled it draws, selects and
commands nothing.  The blocks of the document that it has read are folded right
after they have been selected and everything has been unfolded, and its primary
selection is put back at once; nothing else is selected or folded, except that
the blocks stay selected if unfolding or folding fails. -/
theorem Course.orderly {episodes : List Episode} {holder : Option Coordinator}
    (course : Course episodes holder) :
    (∀ episode ∈ episodes, episode.Orderly ∧
      (episode.purpose ≠ .finish →
        (∀ exchange ∈ episode.exchanges, ∀ document : Document,
          exchange.shown? = some (some document) →
          document.language ≠ targetLanguage) →
        ∀ exchange ∈ episode.exchanges, ¬ exchange.request.IsEffect) ∧
      ((∀ exchange ∈ episode.exchanges, ∀ answer,
          exchange.section? = some answer →
          (Settings.ofSection answer).1.enabled = false) →
        ∀ exchange ∈ episode.exchanges, ¬ exchange.request.IsDisplay)) ∧
    OrderlyCalls (callsOf episodes) := by
  have orderly (episode : Episode) (member : episode ∈ episodes) :
      episode.Orderly := by
    obtain ⟨last, follows, ends⟩ := course.follows episode member
    exact Episode.orderly_of_follows follows ends
  refine ⟨fun episode member => ⟨orderly episode member, ?_, ?_⟩,
    orderlyCalls_of_orderly orderly⟩
  · intro unfinished other exchange within effect
    exact unfinished
      ((orderly episode member).idle other exchange within effect).1
  · exact (orderly episode member).undrawn

/-- The block above the cursor is folded at the activation, and nothing is done
in a document of another language. -/
theorem Course.orderly_folded :
    ∃ episodes coordinator, Course episodes (some coordinator) ∧
      (∀ episode ∈ episodes, episode.Orderly) ∧
      OrderlyCalls (callsOf episodes) ∧
      (callsOf episodes).drop 4 =
        [.createStyle 1 Settings.default.style,
          .applyDecorations 1 [⟨⟨0, 0⟩, ⟨1, 3⟩⟩],
          .setSelections [.caret ⟨0, 0⟩], .execute .unfoldAll, .execute .fold,
          .setSelections [.caret ⟨2, 1⟩]] := by
  have activated : (Coordinator.activate 0).Yields _
      (.ok ⟨0, ⟨some 1⟩, {}, [1, 1, 1, 1]⟩) :=
    Interaction.yields_transcript (answering blockAboveCursor 1)
      (by decide +kernel)
  have course := (Course.activated activated).served
    (.command .hideSignatures) (Interaction.yields_transcript
      (answering ⟨2, "python", "", []⟩ 2) rfl)
  obtain ⟨orderly, calls⟩ := course.orderly
  exact ⟨_, _, course, fun episode member => (orderly episode member).1, calls,
    by decide +kernel⟩

/-- Answers as in `answering`, but the command to unfold is refused. -/
def refusingUnfold (shown : Document) (number : Nat) :
    (request : Request) → request.Answer
  | .execute .unfoldAll => Except.error (.host "editor.unfoldAll failed")
  | request => answering shown number request

/-- If unfolding fails, the blocks have been selected and are not folded. -/
theorem Course.selections_without_fold :
    ¬ ∀ episodes holder, Course episodes holder →
      ∀ earlier selections later,
        callsOf episodes = earlier ++ .setSelections selections :: later →
        (∃ rest, later = .execute .unfoldAll :: .execute .fold :: rest) ∨
          ∃ lead, earlier = lead ++ [.execute .fold] := by
  intro onlyWithFold
  have activated : (Coordinator.activate 0).Yields _ (.ok _) :=
    Interaction.yields_transcript (answering ⟨2, "python", "", []⟩ 1) rfl
  have served : (Coordinator.serve ⟨0, {}, {}, [1, 1, 1, 1]⟩
      (.command .hideSignatures)).Yields _
        (some ⟨0, ⟨some 1⟩, {}, [1, 1, 1, 1]⟩) :=
    Interaction.yields_transcript (refusingUnfold blockAboveCursor 1)
      (by decide +kernel)
  have course := (Course.activated activated).served _ served
  rcases onlyWithFold _ _ course
      ((Coordinator.topics.map fun pair => .listen pair.1 1) ++
        [.createStyle 1 Settings.default.style,
          .applyDecorations 1 [⟨⟨0, 0⟩, ⟨1, 3⟩⟩]])
      [.caret ⟨0, 0⟩] [.execute .unfoldAll] (by decide +kernel) with
    ⟨rest, folds⟩ | ⟨lead, folds⟩
  · simp at folds
  · have last := congrArg List.getLast? folds
    simp at last

end SignatureVeil
