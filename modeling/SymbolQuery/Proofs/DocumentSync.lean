/-
What a server knows of the documents that a client keeps up to date.

The client notes the text of each document; the server has the last text that it was
sent. After calls of `sync` of which any may fail to write, the two agree for every
document except one whose last change could not be written: that change was noted
although the server never heard of it. A call with that very text is then taken for
old news, and it succeeds without telling the server anything.

`SyncOutcome` says once what a call can do, and `Noticed` is the relation between the
two sides that every call keeps, document by document.
-/
import Mathlib.Data.List.Induction
import Mathlib.Logic.Function.Basic
import SymbolQuery.Client.Basic

set_option autoImplicit false

namespace SymbolQuery

/-! ## The server's side -/

/-- The document that a message is about and the text that it tells, if it tells one. Of several
changes in one message the last one holds. -/
def textTold (message : Json) : Option (String × String) :=
  match message.get? "method" with
  | some (.str "textDocument/didOpen") => do
    let uri ← (message.path? ["params", "textDocument", "uri"]).bind Json.text?
    let text ← (message.path? ["params", "textDocument", "text"]).bind Json.text?
    return (uri, text)
  | some (.str "textDocument/didChange") => do
    let uri ← (message.path? ["params", "textDocument", "uri"]).bind Json.text?
    let changes ← (message.path? ["params", "contentChanges"]).bind Json.items?
    let change ← changes.getLast?
    let text ← (change.get? "text").bind Json.text?
    return (uri, text)
  | _ => none

/-- News of a document tell its text. -/
theorem textTold_notification (languageId : String) (n : DocumentNews) :
    textTold (n.notification languageId).toJson = some (n.uri, n.text) := by
  cases n <;> rfl

/-- The last text of a document that messages tell. -/
def lastText (uri : String) (messages : List Json) : Option String :=
  messages.reverse.findSome? fun m =>
    (textTold m).bind fun told => if told.1 = uri then some told.2 else none

/-- News of one document replace its text and leave the others alone. -/
theorem lastText_concat_news (messages : List Json) (languageId : String) (n : DocumentNews)
    (uri : String) :
    lastText uri (messages ++ [(n.notification languageId).toJson])
      = if uri = n.uri then some n.text else lastText uri messages := by
  rw [lastText, List.reverse_append, List.reverse_singleton, List.singleton_append,
    List.findSome?_cons, textTold_notification, Option.bind_some]
  by_cases huri : uri = n.uri
  · rw [if_pos huri, if_pos huri.symm]
  · rw [if_neg huri, if_neg (Ne.symm huri)]
    rfl

/-! ## Calls -/

/-- A call: a text of a document, and the state of the way to the server while it is made. -/
structure SyncCall where
  uri : String
  text : String
  channel : Channel
  deriving DecidableEq, Repr

namespace Client

/-- Makes a call. -/
def syncOn (c : Client) (k : SyncCall) : Except ServiceFault Unit × Client :=
  { c with outgoing := { c.outgoing with channel := k.channel } }.sync k.uri k.text

/-- A new client after calls. -/
def afterSyncs (language : Language) (calls : List SyncCall) : Client :=
  calls.foldl (fun c k => (c.syncOn k).2) { language := language }

theorem afterSyncs_concat (language : Language) (calls : List SyncCall) (k : SyncCall) :
    afterSyncs language (calls ++ [k]) = ((afterSyncs language calls).syncOn k).2 := by
  rw [afterSyncs, List.foldl_append]
  rfl

/-- The text of a document that the client has noted. -/
def noted (c : Client) (uri : String) : Option String :=
  (c.documents.find? uri).map Document.text

/-- The text of a document that the server was sent last. -/
def told (c : Client) (uri : String) : Option String := lastText uri c.outgoing.messages

/-- **What a call does** to both sides, with whether it succeeds. -/
inductive SyncOutcome (c : Client) (k : SyncCall) (c' : Client) : Bool → Prop
  /-- The text is the one noted, and nothing is sent. -/
  | oldNews (hnoted : c.noted k.uri = some k.text) (hn : c'.noted = c.noted)
      (ht : c'.told = c.told) : SyncOutcome c k c' true
  /-- The text is sent and noted. -/
  | heard (hnoted : c.noted k.uri ≠ some k.text)
      (hn : c'.noted = Function.update c.noted k.uri (some k.text))
      (ht : c'.told = Function.update c.told k.uri (some k.text)) : SyncOutcome c k c' true
  /-- A change that can not be sent is noted all the same. -/
  | lostChange (hnoted : c.noted k.uri ≠ some k.text) (hknown : c.noted k.uri ≠ none)
      (hn : c'.noted = Function.update c.noted k.uri (some k.text))
      (ht : c'.told = c.told) : SyncOutcome c k c' false
  /-- An opening that can not be sent leaves no trace. -/
  | lostOpening (hnoted : c.noted k.uri = none) (hn : c'.noted = c.noted)
      (ht : c'.told = c.told) : SyncOutcome c k c' false

/-- A call is about one document only. -/
theorem SyncOutcome.of_ne {c c' : Client} {k : SyncCall} {ok : Bool} (h : SyncOutcome c k c' ok)
    {uri : String} (hne : uri ≠ k.uri) : c'.noted uri = c.noted uri ∧ c'.told uri = c.told uri := by
  cases h with
  | oldNews _ hn ht | lostOpening _ hn ht => exact ⟨by rw [hn], by rw [ht]⟩
  | heard _ hn ht =>
    exact ⟨by rw [hn, Function.update_of_ne hne], by rw [ht, Function.update_of_ne hne]⟩
  | lostChange _ _ hn ht => exact ⟨by rw [hn, Function.update_of_ne hne], by rw [ht]⟩

/-- Noting a document changes what is noted of its uri only. -/
theorem noted_put {c c' : Client} {d : Document} (h : c'.documents = Documents.put c.documents d) :
    c'.noted = Function.update c.noted d.uri (some d.text) := by
  funext uri
  rw [noted, h, Documents.find?_put, Function.update_apply]
  by_cases huri : uri = d.uri
  · rw [if_pos huri, if_pos huri, Option.map_some]
  · rw [if_neg huri, if_neg huri, noted]

/-- Sending news changes what was told of their uri only. -/
theorem told_of_news {c c' : Client} {languageId : String} {n : DocumentNews}
    (h : c'.outgoing.messages = c.outgoing.messages ++ [(n.notification languageId).toJson]) :
    c'.told = Function.update c.told n.uri (some n.text) := by
  funext uri
  rw [told, h, lastText_concat_news, Function.update_apply, told]

/-- A call without news leaves everything as it was. -/
theorem syncOn_of_no_news {c : Client} {k : SyncCall}
    (hnews : c.documents.news k.uri k.text = none) :
    c.syncOn k = (.ok (), { c with outgoing := { c.outgoing with channel := k.channel } }) := by
  simp only [syncOn, sync, hnews]

/-- A call with news sends them and notes how that went. -/
theorem syncOn_of_news {c : Client} (hc : c.outgoing.Idle) {k : SyncCall} {n : DocumentNews}
    (hnews : c.documents.news k.uri k.text = some n) :
    (c.syncOn k).2.outgoing.Idle
      ∧ (c.syncOn k).2.documents = c.documents.note n (c.syncOn k).1.isOk
      ∧ (c.syncOn k).2.outgoing.messages = c.outgoing.messages
          ++ if (c.syncOn k).1.isOk then [(n.notification c.language.id).toJson] else [] := by
  have hidle : { c.outgoing with channel := k.channel }.Idle := hc
  simp only [syncOn, sync, hnews]
  cases hfault : k.channel.fault? with
  | none =>
    have hintact : k.channel = .intact := by
      cases hk : k.channel <;> simp [hk, Channel.fault?] at hfault ⊢
    rw [send_of_intact (c := { c with outgoing := { c.outgoing with channel := k.channel } })
      hintact]
    refine ⟨Outgoing.idle_writePart _ _ _, rfl, ?_⟩
    rw [Outgoing.messages_writePart hidle, if_pos (Nat.le_refl _)]
    rfl
  | some fault =>
    rw [send_of_fault (c := { c with outgoing := { c.outgoing with channel := k.channel } })
      hfault]
    exact ⟨hc, rfl, (List.append_nil _).symm⟩

/-- Each call has one of the four outcomes, and afterwards nobody is writing. -/
theorem syncOn_outcome {c : Client} (hc : c.outgoing.Idle) (k : SyncCall) :
    (c.syncOn k).2.outgoing.Idle ∧ SyncOutcome c k (c.syncOn k).2 (c.syncOn k).1.isOk := by
  cases hd : c.documents.find? k.uri with
  | none =>
    have hnoted : c.noted k.uri = none := by rw [noted, hd, Option.map_none]
    have hnews : c.documents.news k.uri k.text = some (.opened k.uri k.text) := by
      rw [Documents.news, hd]
    obtain ⟨hidle, hdocs, hmsgs⟩ := syncOn_of_news hc hnews
    refine ⟨hidle, ?_⟩
    cases hok : (c.syncOn k).1.isOk with
    | true =>
      rw [hok] at hdocs hmsgs
      exact .heard (by simp [hnoted]) (noted_put hdocs) (told_of_news hmsgs)
    | false =>
      rw [hok] at hdocs hmsgs
      refine .lostOpening hnoted (by funext uri; rw [noted, hdocs]; rfl) ?_
      funext uri
      rw [told, hmsgs, if_neg Bool.false_ne_true, List.append_nil, told]
  | some d =>
    have hnoted : c.noted k.uri = some d.text := by rw [noted, hd, Option.map_some]
    by_cases htext : d.text = k.text
    · have hnews : c.documents.news k.uri k.text = none := by
        simp only [Documents.news, hd, htext, if_true]
      rw [syncOn_of_no_news hnews]
      exact ⟨hc, .oldNews (by rw [hnoted, htext]) rfl rfl⟩
    · have hnews : c.documents.news k.uri k.text
          = some (.changed k.uri (d.version + 1) k.text) := by
        simp only [Documents.news, hd, htext, if_false]
      have hne : c.noted k.uri ≠ some k.text := by
        rw [hnoted]
        exact fun h => htext (Option.some.inj h)
      obtain ⟨hidle, hdocs, hmsgs⟩ := syncOn_of_news hc hnews
      refine ⟨hidle, ?_⟩
      cases hok : (c.syncOn k).1.isOk with
      | true =>
        rw [hok] at hdocs hmsgs
        exact .heard hne (noted_put hdocs) (told_of_news hmsgs)
      | false =>
        rw [hok] at hdocs hmsgs
        refine .lostChange hne (by simp [hnoted]) (noted_put hdocs) ?_
        funext uri
        rw [told, hmsgs, if_neg Bool.false_ne_true, List.append_nil, told]

/-! ## Histories -/

/-- **A change was lost.** Some call failed to tell this text of a document that the server knew,
and no later call about the document had another text. -/
def LostChange (language : Language) (calls : List SyncCall) (uri text : String) : Prop :=
  ∃ (before : List SyncCall) (k : SyncCall) (later : List SyncCall),
    calls = before ++ k :: later
      ∧ k.uri = uri ∧ k.text = text
      ∧ (afterSyncs language before).told uri ≠ none
      ∧ ((afterSyncs language before).syncOn k).1.isOk = false
      ∧ ∀ j ∈ later, j.uri = uri → j.text = text

/-- The last call loses a change, or one that was lost before is still the latest text. -/
theorem lostChange_concat (language : Language) (calls : List SyncCall) (k : SyncCall)
    (uri text : String) :
    LostChange language (calls ++ [k]) uri text
      ↔ (k.uri = uri ∧ k.text = text ∧ (afterSyncs language calls).told uri ≠ none
          ∧ ((afterSyncs language calls).syncOn k).1.isOk = false)
        ∨ (LostChange language calls uri text ∧ (k.uri = uri → k.text = text)) := by
  constructor
  · rintro ⟨before, j, later, hcalls, huri, htext, htold, hfail, hlater⟩
    cases later using List.reverseRecOn with
    | nil =>
      obtain ⟨rfl, hjk⟩ := List.append_inj' hcalls rfl
      obtain rfl : k = j := (List.cons.inj hjk).1
      exact Or.inl ⟨huri, htext, htold, hfail⟩
    | append_singleton later i _ =>
      -- the lost call is not the last one, which then had the same text if it was about it
      have hsplit : calls ++ [k] = (before ++ j :: later) ++ [i] := by
        rw [hcalls, List.append_assoc, List.cons_append]
      obtain ⟨hbefore, hik⟩ := List.append_inj' hsplit rfl
      obtain rfl : k = i := (List.cons.inj hik).1
      refine Or.inr ⟨⟨before, j, later, hbefore, huri, htext, htold, hfail, ?_⟩, ?_⟩
      · exact fun a ha => hlater a (List.mem_append_left _ ha)
      · exact hlater k (by simp)
  · rintro (⟨huri, htext, htold, hfail⟩ | ⟨⟨before, j, later, hcalls, huri, htext, htold, hfail,
      hlater⟩, hk⟩)
    · exact ⟨calls, k, [], rfl, huri, htext, htold, hfail, by simp⟩
    · refine ⟨before, j, later ++ [k], ?_, huri, htext, htold, hfail, ?_⟩
      · rw [hcalls, List.append_assoc, List.cons_append]
      · intro a ha
        rcases List.mem_append.mp ha with ha | ha
        · exact hlater a ha
        · rw [List.mem_singleton.mp ha]
          exact hk

/-- Calls about one document do not touch what was lost of another. -/
theorem lostChange_concat_of_ne (language : Language) (calls : List SyncCall) {k : SyncCall}
    {uri : String} (hne : uri ≠ k.uri) (text : String) :
    LostChange language (calls ++ [k]) uri text ↔ LostChange language calls uri text := by
  rw [lostChange_concat]
  constructor
  · rintro (⟨huri, _⟩ | ⟨hl, _⟩)
    · exact absurd huri.symm hne
    · exact hl
  · intro hl
    exact Or.inr ⟨hl, fun huri => absurd huri.symm hne⟩

/-- **What the two sides know of a document** after calls: both know it or neither does, what is
noted was told or is a lost change, and a lost change is noted. -/
structure Noticed (language : Language) (calls : List SyncCall) (uri : String) : Prop where
  known : (afterSyncs language calls).noted uri = none
    ↔ (afterSyncs language calls).told uri = none
  told : ∀ text, (afterSyncs language calls).noted uri = some text →
    (afterSyncs language calls).told uri = some text ∨ LostChange language calls uri text
  lost : ∀ text, LostChange language calls uri text →
    (afterSyncs language calls).noted uri = some text

theorem noticed_nil (language : Language) (uri : String) : Noticed language [] uri where
  known := ⟨fun _ => rfl, fun _ => rfl⟩
  told _ h := absurd h (by simp [afterSyncs, noted, Documents.find?])
  lost text h := by
    obtain ⟨before, k, later, hcalls, _⟩ := h
    exact absurd hcalls (by simp)

/-- A call keeps the relation for the documents that it is not about. -/
theorem Noticed.concat_of_ne {language : Language} {calls : List SyncCall} {uri : String}
    (h : Noticed language calls uri) (hidle : (afterSyncs language calls).outgoing.Idle)
    {k : SyncCall} (hne : uri ≠ k.uri) : Noticed language (calls ++ [k]) uri := by
  obtain ⟨hn, ht⟩ := (syncOn_outcome hidle k).2.of_ne hne
  rw [← afterSyncs_concat] at hn ht
  refine ⟨?_, ?_, ?_⟩
  · rw [hn, ht]
    exact h.known
  · intro text htext
    rw [hn] at htext
    rw [ht, lostChange_concat_of_ne language calls hne]
    exact h.told text htext
  · intro text hl
    rw [lostChange_concat_of_ne language calls hne] at hl
    rw [hn]
    exact h.lost text hl

/-- A call keeps the relation for the document that it is about. The cases are the outcomes of the
call. -/
theorem Noticed.concat_self {language : Language} {calls : List SyncCall} {k : SyncCall}
    (h : Noticed language calls k.uri) (hidle : (afterSyncs language calls).outgoing.Idle) :
    Noticed language (calls ++ [k]) k.uri := by
  have houtcome := (syncOn_outcome hidle k).2
  have hlost := lostChange_concat language calls k k.uri
  generalize ((afterSyncs language calls).syncOn k).1.isOk = ok at houtcome hlost
  rw [← afterSyncs_concat] at houtcome
  cases houtcome with
  | oldNews hnoted hn ht =>
    -- a change that was lost before is still the text noted, so this call repeats it
    refine ⟨by rw [hn, ht]; exact h.known, ?_, ?_⟩
    · intro text htext
      rw [hn] at htext
      have hsame : k.text = text := Option.some.inj (hnoted.symm.trans htext)
      rw [ht]
      exact (h.told text htext).imp_right fun hl => (hlost text).mpr (Or.inr ⟨hl, fun _ => hsame⟩)
    · intro text hl
      rw [hn]
      rcases (hlost text).mp hl with ⟨_, _, _, hfail⟩ | ⟨hl, _⟩
      · exact absurd hfail (by simp)
      · exact h.lost text hl
  | heard hnoted hn ht =>
    have hnow : (afterSyncs language (calls ++ [k])).noted k.uri = some k.text := by
      rw [hn, Function.update_self]
    have htold : (afterSyncs language (calls ++ [k])).told k.uri = some k.text := by
      rw [ht, Function.update_self]
    refine ⟨by simp [hnow, htold], ?_, ?_⟩
    · intro text htext
      rw [htold, ← hnow]
      exact Or.inl htext
    · intro text hl
      rcases (hlost text).mp hl with ⟨_, _, _, hfail⟩ | ⟨_, hk⟩
      · exact absurd hfail (by simp)
      · rw [hnow, hk rfl]
  | lostChange hnoted hknown hn ht =>
    have hnow : (afterSyncs language (calls ++ [k])).noted k.uri = some k.text := by
      rw [hn, Function.update_self]
    have htold : (afterSyncs language calls).told k.uri ≠ none :=
      fun hnone => hknown (h.known.mpr hnone)
    refine ⟨by rw [hnow, ht]; simp [htold], ?_, ?_⟩
    · intro text htext
      have hsame : k.text = text := Option.some.inj (hnow.symm.trans htext)
      exact Or.inr ((hlost text).mpr (Or.inl ⟨rfl, hsame, htold, rfl⟩))
    · intro text hl
      rcases (hlost text).mp hl with ⟨_, htext, _, _⟩ | ⟨_, hk⟩
      · rw [hnow, htext]
      · rw [hnow, hk rfl]
  | lostOpening hnoted hn ht =>
    -- the server does not know the document, so nothing of it can have been lost
    refine ⟨by rw [hn, ht]; exact h.known, ?_, ?_⟩
    · intro text htext
      rw [hn, hnoted] at htext
      cases htext
    · intro text hl
      rw [hn]
      rcases (hlost text).mp hl with ⟨_, _, htold, _⟩ | ⟨hl, _⟩
      · exact absurd (h.known.mp hnoted) htold
      · exact h.lost text hl

/-- After any calls nobody is writing. -/
theorem idle_afterSyncs (language : Language) (calls : List SyncCall) :
    (afterSyncs language calls).outgoing.Idle := by
  induction calls using List.reverseRecOn with
  | nil => rfl
  | append_singleton calls k ih =>
    rw [afterSyncs_concat]
    exact (syncOn_outcome ih k).1

/-- The relation holds after any calls. -/
theorem noticed (language : Language) (calls : List SyncCall) (uri : String) :
    Noticed language calls uri := by
  induction calls using List.reverseRecOn with
  | nil => exact noticed_nil language uri
  | append_singleton calls k ih =>
    by_cases huri : uri = k.uri
    · subst huri
      exact ih.concat_self (idle_afterSyncs language calls)
    · exact ih.concat_of_ne (idle_afterSyncs language calls) huri

/-- **When a success is hollow.** After any calls, of which each could write or not, a further
call succeeds without the server having its text exactly if a change to that very text was lost
and the server still has another one. -/
theorem syncOn_ok_unheard_iff (language : Language) (calls : List SyncCall) (k : SyncCall) :
    let c := afterSyncs language calls
    ((c.syncOn k).1.isOk = true ∧ (c.syncOn k).2.told k.uri ≠ some k.text)
      ↔ (LostChange language calls k.uri k.text ∧ c.told k.uri ≠ some k.text) := by
  intro c
  have h := noticed language calls k.uri
  obtain ⟨_, houtcome⟩ := syncOn_outcome (idle_afterSyncs language calls) k
  change SyncOutcome c k (c.syncOn k).2 (c.syncOn k).1.isOk at houtcome
  generalize (c.syncOn k).1.isOk = ok at houtcome ⊢
  constructor
  · rintro ⟨rfl, hunheard⟩
    cases houtcome with
    | oldNews hnoted hn ht =>
      rw [ht] at hunheard
      exact ⟨(h.told k.text hnoted).resolve_left hunheard, hunheard⟩
    | heard hnoted hn ht =>
      rw [ht, Function.update_self] at hunheard
      exact absurd rfl hunheard
  · rintro ⟨hlost, hunheard⟩
    have hnoted : c.noted k.uri = some k.text := h.lost k.text hlost
    cases houtcome with
    | oldNews _ hn ht => exact ⟨rfl, by rwa [ht]⟩
    | heard hne | lostChange hne => exact absurd hnoted hne
    | lostOpening hnone => exact absurd (hnoted.symm.trans hnone) (by simp)

/-- A success that the server knows nothing of: the text `b` was refused once and then passes for
known, though the server has the text `a`. -/
theorem syncOn_ok_unheard :
    let calls : List SyncCall :=
      [⟨"file:///a.rs", "a", .intact⟩, ⟨"file:///a.rs", "b", .broken⟩]
    let again : SyncCall := ⟨"file:///a.rs", "b", .broken⟩
    let c := afterSyncs .rust calls
    (c.syncOn again).1.isOk = true ∧ (c.syncOn again).2.told "file:///a.rs" = some "a" := by
  decide +kernel

end Client

end SymbolQuery
