/-
In which order a server is told about a document.

A document has to be opened before it is changed, and each change has to have a later
version than whatever was told before. An opening that can not be sent is forgotten and
made again, a change that can not be sent keeps its version, and the next change has the
version behind it. So versions may be missing from what the server is told, but they never
come back and never come in another order; and where every write goes through, none is
missing.

`attempts` keeps beside a run what its calls had to tell, and whether they could. `Chronicle`
says of one document how the notifications that the server got are related to what the
client has noted and to the attempts; every call keeps it.
-/
import SymbolQuery.Proofs.DocumentSync

set_option autoImplicit false

namespace SymbolQuery

/-! ## What the server is told of one document -/

/-- Whether news are of a change of a document. -/
def DocumentNews.isChangeOf (uri : String) : DocumentNews → Bool
  | .opened _ _ => false
  | .changed uri' _ _ => uri' == uri

/-- The notification with news, as it is sent in a session about a language. -/
def DocumentNews.sentIn (language : Language) (n : DocumentNews) : Json :=
  (n.notification language.id).toJson

/-- The document that a notification is about. -/
def documentOf? (message : Json) : Option String :=
  (message.path? ["params", "textDocument", "uri"]).bind Json.text?

theorem documentOf?_sentIn (language : Language) (n : DocumentNews) :
    documentOf? (n.sentIn language) = some n.uri := by
  cases n <;> rfl

/-- **A document's notifications are well ordered**: it is opened, with version 1, and then only
changed, and the versions increase. -/
structure WellOrdered (uri : String) (ns : List DocumentNews) : Prop where
  opensFirst : ns = [] ∨ ∃ text changes, ns = .opened uri text :: changes
    ∧ ∀ n ∈ changes, ∃ version text, n = .changed uri version text
  increases : (ns.map DocumentNews.version).Pairwise (· < ·)

/-- A document may be opened that was not. -/
theorem WellOrdered.opened (uri text : String) : WellOrdered uri [.opened uri text] where
  opensFirst := Or.inr ⟨text, [], rfl, by simp⟩
  increases := List.pairwise_singleton _ _

/-- A document that was opened may be changed, with a version that is later than all before. -/
theorem WellOrdered.changed {uri : String} {ns : List DocumentNews} (h : WellOrdered uri ns)
    (hopen : ns ≠ []) {version : Nat} (hlater : ∀ n ∈ ns, n.version < version) (text : String) :
    WellOrdered uri (ns ++ [.changed uri version text]) where
  opensFirst := by
    obtain ⟨first, changes, rfl, hchanges⟩ := h.opensFirst.resolve_left hopen
    refine Or.inr ⟨first, changes ++ [.changed uri version text], rfl, ?_⟩
    intro n hn
    rcases List.mem_append.mp hn with hn | hn
    · exact hchanges n hn
    · exact ⟨version, text, List.mem_singleton.mp hn⟩
  increases := by
    rw [List.map_append, List.pairwise_append]
    refine ⟨h.increases, List.pairwise_singleton _ _, ?_⟩
    intro v hv w hw
    obtain ⟨n, hn, rfl⟩ := List.mem_map.mp hv
    rw [List.map_singleton, List.mem_singleton] at hw
    rw [hw]
    exact hlater n hn

/-! ## What calls have to tell -/

namespace Client

/-- The notifications about a document that the server was sent. -/
def toldAbout (c : Client) (uri : String) : List Json :=
  c.outgoing.messages.filter fun m => documentOf? m == some uri

/-- What calls of a client have to tell, each with whether it could be sent. -/
def attemptsFrom (c : Client) : List SyncCall → List (DocumentNews × Bool)
  | [] => []
  | k :: calls =>
    (c.documents.news k.uri k.text).toList.map (·, (c.syncOn k).1.isOk)
      ++ (c.syncOn k).2.attemptsFrom calls

/-- What calls of a new client have to tell. -/
def attempts (language : Language) (calls : List SyncCall) : List (DocumentNews × Bool) :=
  attemptsFrom { language := language } calls

/-- The number of changes of a document that calls had to tell. -/
def changeCount (language : Language) (calls : List SyncCall) (uri : String) : Nat :=
  (attempts language calls).countP fun a => a.1.isChangeOf uri

/-- No write of a call failed. -/
def NoneFailed (language : Language) (calls : List SyncCall) : Prop :=
  ∀ a ∈ attempts language calls, a.2 = true

theorem attempts_concat (language : Language) (calls : List SyncCall) (k : SyncCall) :
    attempts language (calls ++ [k])
      = attempts language calls
        ++ ((afterSyncs language calls).documents.news k.uri k.text).toList.map
            (·, ((afterSyncs language calls).syncOn k).1.isOk) := by
  unfold attempts afterSyncs
  generalize ({ language := language } : Client) = c
  induction calls generalizing c with
  | nil => exact List.append_nil _
  | cons j calls ih =>
    rw [List.cons_append, attemptsFrom, ih, attemptsFrom, List.append_assoc, List.foldl_cons]

theorem language_afterSyncs (language : Language) (calls : List SyncCall) :
    (afterSyncs language calls).language = language := by
  induction calls using List.reverseRecOn with
  | nil => rfl
  | append_singleton calls k ih =>
    rw [afterSyncs_concat, syncOn, sync]
    split <;> exact ih

/-- The text that calls had last for a document. -/
def lastSynced (calls : List SyncCall) (uri : String) : Option String :=
  ((calls.filter fun k => k.uri == uri).getLast?).map SyncCall.text

theorem lastSynced_concat (calls : List SyncCall) (k : SyncCall) (uri : String) :
    lastSynced (calls ++ [k]) uri = if k.uri = uri then some k.text else lastSynced calls uri := by
  unfold lastSynced
  rw [List.filter_append, List.filter_cons, List.filter_nil]
  by_cases huri : k.uri = uri
  · rw [if_pos huri, if_pos (beq_iff_eq.mpr huri), List.getLast?_concat, Option.map_some]
  · rw [if_neg huri, if_neg (by rwa [beq_iff_eq]), List.append_nil]

/-! ## What a call does to one document -/

/-- The notification of a call that could be sent is told about its document. -/
theorem toldAbout_syncOn {c : Client} (hc : c.outgoing.Idle) {k : SyncCall} {n : DocumentNews}
    (hnews : c.documents.news k.uri k.text = some n) (uri : String) :
    (c.syncOn k).2.toldAbout uri
      = c.toldAbout uri
        ++ if (c.syncOn k).1.isOk = true ∧ n.uri = uri then [n.sentIn c.language] else [] := by
  unfold toldAbout
  rw [(syncOn_of_news hc hnews).2.2, List.filter_append]
  cases (c.syncOn k).1.isOk with
  | false => simp
  | true =>
    change _ ++ [n.sentIn c.language].filter _ = _
    rw [List.filter_cons, documentOf?_sentIn, List.filter_nil]
    by_cases huri : n.uri = uri
    · simp [huri]
    · simp [huri]

/-- There are no news of a document exactly where the text is the one noted. -/
theorem news_eq_none_iff {c : Client} {uri text : String} :
    c.documents.news uri text = none ↔ c.noted uri = some text := by
  unfold Documents.news noted
  cases c.documents.find? uri with
  | none => simp
  | some d => simp

/-- News are of the document and the text that a call has. -/
theorem news_eq_some {ds : Documents} {uri text : String} {n : DocumentNews}
    (h : ds.news uri text = some n) : n.uri = uri ∧ n.text = text := by
  unfold Documents.news at h
  split at h
  · cases h
    exact ⟨rfl, rfl⟩
  · split at h
    · cases h
    · cases h
      exact ⟨rfl, rfl⟩

/-- Noting news replaces the document that they are of, unless it could not be opened. -/
theorem find?_note (ds : Documents) (n : DocumentNews) (sent : Bool) (uri : String) :
    (ds.note n sent).find? uri
      = if uri = n.uri ∧ (sent = true ∨ n.isChangeOf n.uri = true)
          then some ⟨n.uri, n.version, n.text⟩ else ds.find? uri := by
  cases n with
  | opened uri' text =>
    cases sent with
    | false => simp [Documents.note, DocumentNews.isChangeOf]
    | true =>
      rw [Documents.note, if_pos rfl, Documents.find?_put]
      simp [DocumentNews.uri, DocumentNews.version, DocumentNews.text]
  | changed uri' version text =>
    rw [Documents.note, Documents.find?_put]
    simp [DocumentNews.isChangeOf, DocumentNews.uri, DocumentNews.version, DocumentNews.text]

section

variable {language : Language} {calls : List SyncCall} {k : SyncCall}

theorem attempts_of_no_news
    (hnews : (afterSyncs language calls).documents.news k.uri k.text = none) :
    attempts language (calls ++ [k]) = attempts language calls := by
  rw [attempts_concat, hnews]
  exact List.append_nil _

theorem attempts_of_news {n : DocumentNews}
    (hnews : (afterSyncs language calls).documents.news k.uri k.text = some n) :
    attempts language (calls ++ [k])
      = attempts language calls ++ [(n, ((afterSyncs language calls).syncOn k).1.isOk)] := by
  rw [attempts_concat, hnews]
  rfl

theorem changeCount_of_news {n : DocumentNews}
    (hnews : (afterSyncs language calls).documents.news k.uri k.text = some n) (uri : String) :
    changeCount language (calls ++ [k]) uri
      = changeCount language calls uri + if n.isChangeOf uri then 1 else 0 := by
  unfold changeCount
  rw [attempts_of_news hnews, List.countP_append, List.countP_singleton]

/-- What the client knows of a document after a call with news. -/
theorem find?_of_news {n : DocumentNews}
    (hnews : (afterSyncs language calls).documents.news k.uri k.text = some n) (uri : String) :
    (afterSyncs language (calls ++ [k])).documents.find? uri
      = if uri = n.uri
            ∧ (((afterSyncs language calls).syncOn k).1.isOk = true ∨ n.isChangeOf n.uri = true)
          then some ⟨n.uri, n.version, n.text⟩
          else (afterSyncs language calls).documents.find? uri := by
  rw [afterSyncs_concat, (syncOn_of_news (idle_afterSyncs language calls) hnews).2.1, find?_note]

/-- What the server was told of a document after a call with news. -/
theorem toldAbout_of_news {n : DocumentNews}
    (hnews : (afterSyncs language calls).documents.news k.uri k.text = some n) (uri : String) :
    (afterSyncs language (calls ++ [k])).toldAbout uri
      = (afterSyncs language calls).toldAbout uri
        ++ if ((afterSyncs language calls).syncOn k).1.isOk = true ∧ n.uri = uri
            then [n.sentIn language] else [] := by
  rw [afterSyncs_concat, toldAbout_syncOn (idle_afterSyncs language calls) hnews,
    language_afterSyncs]

theorem NoneFailed.before (h : NoneFailed language (calls ++ [k])) :
    NoneFailed language calls := by
  intro a ha
  apply h
  rw [attempts_concat]
  exact List.mem_append_left _ ha

theorem NoneFailed.last (h : NoneFailed language (calls ++ [k])) {n : DocumentNews}
    (hnews : (afterSyncs language calls).documents.news k.uri k.text = some n) :
    ((afterSyncs language calls).syncOn k).1.isOk = true := by
  have hlast := h (n, ((afterSyncs language calls).syncOn k).1.isOk)
  rw [attempts_of_news hnews] at hlast
  exact hlast (List.mem_append_right _ (List.mem_singleton.mpr rfl))

end

/-! ## The chronicle of a document -/

/-- **The chronicle of a document** after calls. The server was told `ns` of it. It is known to the
client if it was opened, and then with a version that counts the changes, sent or not. Where none
failed, the client has noted the last text and the server was told every version. -/
structure Chronicle (language : Language) (calls : List SyncCall) (uri : String)
    (ns : List DocumentNews) : Prop where
  told : (afterSyncs language calls).toldAbout uri = ns.map (DocumentNews.sentIn language)
  ordered : WellOrdered uri ns
  unknown : (afterSyncs language calls).documents.find? uri = none →
    ns = [] ∧ changeCount language calls uri = 0
  known : ∀ d, (afterSyncs language calls).documents.find? uri = some d →
    ns ≠ [] ∧ d.version = changeCount language calls uri + 1 ∧ ∀ n ∈ ns, n.version ≤ d.version
  complete : NoneFailed language calls →
    (afterSyncs language calls).noted uri = lastSynced calls uri
    ∧ (∀ d, (afterSyncs language calls).documents.find? uri = some d → d.version = ns.length)
    ∧ ns.map DocumentNews.version = List.range' 1 ns.length

theorem chronicle_nil (language : Language) (uri : String) : Chronicle language [] uri [] where
  told := rfl
  ordered := ⟨Or.inl rfl, List.Pairwise.nil⟩
  unknown _ := ⟨rfl, rfl⟩
  known d hd := by cases hd
  complete _ := by
    refine ⟨rfl, ?_, rfl⟩
    intro d hd
    cases hd

namespace Chronicle

variable {language : Language} {calls : List SyncCall} {k : SyncCall} {uri : String}
  {ns : List DocumentNews}

/-- A call after which the client and the server know of the document what they knew before. -/
theorem of_same (h : Chronicle language calls uri ns)
    (hdoc : (afterSyncs language (calls ++ [k])).documents.find? uri
      = (afterSyncs language calls).documents.find? uri)
    (htold : (afterSyncs language (calls ++ [k])).toldAbout uri
      = (afterSyncs language calls).toldAbout uri)
    (hcount : changeCount language (calls ++ [k]) uri = changeCount language calls uri)
    (hsynced : NoneFailed language (calls ++ [k]) →
      (afterSyncs language calls).noted uri = lastSynced (calls ++ [k]) uri) :
    Chronicle language (calls ++ [k]) uri ns where
  told := htold.trans h.told
  ordered := h.ordered
  unknown := by
    rw [hdoc, hcount]
    exact h.unknown
  known := by
    rw [hdoc, hcount]
    exact h.known
  complete := by
    intro hnone
    obtain ⟨_, hversion, hversions⟩ := h.complete hnone.before
    rw [noted, hdoc]
    exact ⟨hsynced hnone, hversion, hversions⟩

/-- A call is about one document only. -/
theorem concat_of_ne (h : Chronicle language calls uri ns) (hne : k.uri ≠ uri) :
    Chronicle language (calls ++ [k]) uri ns := by
  have hsynced : NoneFailed language (calls ++ [k]) →
      (afterSyncs language calls).noted uri = lastSynced (calls ++ [k]) uri := by
    intro hnone
    rw [lastSynced_concat, if_neg hne]
    exact (h.complete hnone.before).1
  cases hnews : (afterSyncs language calls).documents.news k.uri k.text with
  | none =>
    have hcall := syncOn_of_no_news hnews
    refine h.of_same ?_ ?_ ?_ hsynced
    · rw [afterSyncs_concat, hcall]
    · rw [afterSyncs_concat, hcall]
      rfl
    · rw [changeCount, attempts_of_no_news hnews, changeCount]
  | some n =>
    have huri : n.uri ≠ uri := (news_eq_some hnews).1 ▸ hne
    refine h.of_same ?_ ?_ ?_ hsynced
    · rw [find?_of_news hnews, if_neg fun hn => huri hn.1.symm]
    · rw [toldAbout_of_news hnews, if_neg fun hn => huri hn.2, List.append_nil]
    · have hother : n.isChangeOf uri = false := by
        cases n with
        | opened _ _ => rfl
        | changed _ _ _ => exact beq_eq_false_iff_ne.mpr huri
      rw [changeCount_of_news hnews, hother]
      rfl

/-- A call whose text is the one noted. -/
theorem concat_of_no_news (h : Chronicle language calls k.uri ns)
    (hnews : (afterSyncs language calls).documents.news k.uri k.text = none) :
    Chronicle language (calls ++ [k]) k.uri ns := by
  have hcall := syncOn_of_no_news hnews
  refine h.of_same ?_ ?_ ?_ ?_
  · rw [afterSyncs_concat, hcall]
  · rw [afterSyncs_concat, hcall]
    rfl
  · rw [changeCount, attempts_of_no_news hnews, changeCount]
  · intro _
    rw [lastSynced_concat, if_pos rfl]
    exact news_eq_none_iff.mp hnews

/-- A call that opens the document, or fails to. -/
theorem concat_opened (h : Chronicle language calls k.uri ns)
    (hdoc : (afterSyncs language calls).documents.find? k.uri = none) :
    ∃ ns', Chronicle language (calls ++ [k]) k.uri ns' := by
  have hnews : (afterSyncs language calls).documents.news k.uri k.text
      = some (.opened k.uri k.text) := by
    rw [Documents.news, hdoc]
  obtain ⟨rfl, hcount⟩ := h.unknown hdoc
  have hcount' : changeCount language (calls ++ [k]) k.uri = 0 := by
    rw [changeCount_of_news hnews, hcount]
    rfl
  have hfind := find?_of_news hnews k.uri
  have htold := toldAbout_of_news hnews k.uri
  rw [h.told] at htold
  cases hok : ((afterSyncs language calls).syncOn k).1.isOk with
  | false =>
    -- what could not be opened is not noted either
    rw [hok, if_neg (by simp [DocumentNews.isChangeOf])] at hfind
    rw [hok, if_neg (by simp)] at htold
    refine ⟨[], h.of_same hfind (htold.trans h.told.symm) (hcount'.trans hcount.symm) ?_⟩
    intro hnone
    rw [hnone.last hnews] at hok
    cases hok
  | true =>
    rw [hok, if_pos ⟨rfl, Or.inl rfl⟩] at hfind
    rw [hok, if_pos ⟨rfl, rfl⟩] at htold
    refine ⟨[.opened k.uri k.text], htold, WellOrdered.opened k.uri k.text, ?_, ?_, ?_⟩
    · intro hnone
      rw [hfind] at hnone
      cases hnone
    · intro d hd
      rw [hfind] at hd
      cases hd
      refine ⟨by simp, congrArg Nat.succ hcount'.symm, ?_⟩
      intro n hn
      obtain rfl := List.mem_singleton.mp hn
      exact Nat.le_refl 1
    · intro _
      refine ⟨?_, ?_, rfl⟩
      · rw [noted, hfind, lastSynced_concat]
        exact (if_pos rfl).symm
      · intro d hd
        rw [hfind] at hd
        cases hd
        rfl

/-- A call that changes the document, or fails to; the version counts in either case. -/
theorem concat_changed (h : Chronicle language calls k.uri ns) {d : Document}
    (hdoc : (afterSyncs language calls).documents.find? k.uri = some d) (htext : d.text ≠ k.text) :
    ∃ ns', Chronicle language (calls ++ [k]) k.uri ns' := by
  have hnews : (afterSyncs language calls).documents.news k.uri k.text
      = some (.changed k.uri (d.version + 1) k.text) := by
    simp only [Documents.news, hdoc, htext, if_false]
  obtain ⟨hopen, hversion, hlatest⟩ := h.known d hdoc
  have hcount : changeCount language (calls ++ [k]) k.uri = d.version := by
    rw [changeCount_of_news hnews, hversion, DocumentNews.isChangeOf, beq_self_eq_true, if_pos rfl]
  have hfind := find?_of_news hnews k.uri
  have htold := toldAbout_of_news hnews k.uri
  rw [if_pos ⟨rfl, Or.inr (beq_self_eq_true _)⟩] at hfind
  rw [h.told] at htold
  have hknown : (afterSyncs language (calls ++ [k])).documents.find? k.uri ≠ none := by
    rw [hfind]
    exact Option.some_ne_none _
  cases hok : ((afterSyncs language calls).syncOn k).1.isOk with
  | false =>
    -- the version is taken though nobody was told, so the next one to be told is larger still
    rw [hok, if_neg (by simp), List.append_nil] at htold
    refine ⟨ns, htold, h.ordered, fun hnone => absurd hnone hknown, ?_, ?_⟩
    · intro d' hd'
      rw [hfind] at hd'
      cases hd'
      exact ⟨hopen, congrArg Nat.succ hcount.symm, fun n hn => Nat.le_succ_of_le (hlatest n hn)⟩
    · intro hnone
      rw [hnone.last hnews] at hok
      cases hok
  | true =>
    rw [hok, if_pos ⟨rfl, rfl⟩, ← List.map_singleton, ← List.map_append] at htold
    refine ⟨ns ++ [.changed k.uri (d.version + 1) k.text], htold, ?_,
      fun hnone => absurd hnone hknown, ?_, ?_⟩
    · exact h.ordered.changed hopen (fun n hn => Nat.lt_succ_of_le (hlatest n hn)) k.text
    · intro d' hd'
      rw [hfind] at hd'
      cases hd'
      refine ⟨by simp, congrArg Nat.succ hcount.symm, ?_⟩
      intro n hn
      rcases List.mem_append.mp hn with hn | hn
      · exact Nat.le_succ_of_le (hlatest n hn)
      · obtain rfl := List.mem_singleton.mp hn
        exact Nat.le_refl _
    · intro hnone
      obtain ⟨_, hlength, hversions⟩ := h.complete hnone.before
      have hnow := hlength d hdoc
      refine ⟨?_, ?_, ?_⟩
      · rw [noted, hfind, lastSynced_concat]
        exact (if_pos rfl).symm
      · intro d' hd'
        rw [hfind] at hd'
        cases hd'
        rw [List.length_append, ← hnow]
        rfl
      · rw [List.map_append, hversions, List.length_append, List.length_singleton,
          List.range'_concat, ← hnow, Nat.one_mul, Nat.add_comm 1]
        rfl

/-- Where no write failed, the next version is the number of those told, and one more. -/
theorem version_of_news (h : Chronicle language calls uri ns) (hnone : NoneFailed language calls)
    {text : String} {n : DocumentNews}
    (hnews : (afterSyncs language calls).documents.news uri text = some n) :
    n.version = ns.length + 1 := by
  unfold Documents.news at hnews
  split at hnews
  · next hdoc =>
    cases hnews
    rw [(h.unknown hdoc).1]
    rfl
  · next d hdoc =>
    split at hnews
    · cases hnews
    · cases hnews
      rw [← (h.complete hnone).2.1 d hdoc]
      rfl

/-- No version that was told is larger than the number of changes tells. -/
theorem version_le (h : Chronicle language calls uri ns) :
    ∀ n ∈ ns, n.version ≤ changeCount language calls uri + 1 := by
  intro n hn
  cases hdoc : (afterSyncs language calls).documents.find? uri with
  | none =>
    rw [(h.unknown hdoc).1] at hn
    cases hn
  | some d =>
    obtain ⟨_, hversion, hlatest⟩ := h.known d hdoc
    rw [← hversion]
    exact hlatest n hn

/-- Where no write failed, a call has nothing to tell exactly if its text is the last one. -/
theorem no_news_iff (h : Chronicle language calls uri ns) (hnone : NoneFailed language calls)
    {text : String} :
    (afterSyncs language calls).documents.news uri text = none
      ↔ lastSynced calls uri = some text := by
  rw [news_eq_none_iff, (h.complete hnone).1]

/-- Where no write failed, a call with news tells them under the next version. -/
theorem tells (h : Chronicle language calls k.uri ns) (hnone : NoneFailed language (calls ++ [k]))
    {n : DocumentNews}
    (hnews : (afterSyncs language calls).documents.news k.uri k.text = some n) :
    n.version = ((afterSyncs language calls).toldAbout k.uri).length + 1
      ∧ ((afterSyncs language calls).syncOn k).2.outgoing.messages
        = (afterSyncs language calls).outgoing.messages ++ [n.sentIn language] := by
  constructor
  · rw [h.told, List.length_map]
    exact h.version_of_news hnone.before hnews
  · rw [(syncOn_of_news (idle_afterSyncs language calls) hnews).2.2, hnone.last hnews, if_pos rfl,
      language_afterSyncs]
    rfl

end Chronicle

/-- **Every document has a chronicle.** The induction is on the calls, and the cases are whether a
call is about the document and what it has to tell. -/
theorem exists_chronicle (language : Language) (calls : List SyncCall) (uri : String) :
    ∃ ns, Chronicle language calls uri ns := by
  induction calls using List.reverseRecOn with
  | nil => exact ⟨[], chronicle_nil language uri⟩
  | append_singleton calls k ih =>
    obtain ⟨ns, h⟩ := ih
    by_cases huri : k.uri = uri
    · subst huri
      cases hdoc : (afterSyncs language calls).documents.find? k.uri with
      | none => exact h.concat_opened hdoc
      | some d =>
        by_cases htext : d.text = k.text
        · refine ⟨ns, h.concat_of_no_news ?_⟩
          simp only [Documents.news, hdoc, htext, if_true]
        · exact h.concat_changed hdoc htext
    · exact ⟨ns, h.concat_of_ne huri⟩

/-- **The notifications of a document are well ordered** after any calls, of which each could write
or not: the server is told of an opening with version 1 and then only of changes, with versions that
increase and are never larger than the number of changes tells. Where no write fails the versions
are 1, 2, 3 and so on, and a call sends a notification exactly if its text is not the one that the
call about its document before had; the notification tells that text. -/
theorem notifications_in_order (language : Language) (calls : List SyncCall) :
    (∀ uri, ∃ ns : List DocumentNews,
      (afterSyncs language calls).toldAbout uri = ns.map (DocumentNews.sentIn language)
      ∧ WellOrdered uri ns
      ∧ (∀ n ∈ ns, n.version ≤ changeCount language calls uri + 1)
      ∧ (NoneFailed language calls → ns.map DocumentNews.version = List.range' 1 ns.length))
    ∧ ∀ k, NoneFailed language (calls ++ [k]) →
        let c := afterSyncs language calls
        (lastSynced calls k.uri = some k.text →
          (c.syncOn k).2.outgoing.messages = c.outgoing.messages)
        ∧ (lastSynced calls k.uri ≠ some k.text → ∃ n : DocumentNews,
            n.uri = k.uri ∧ n.text = k.text ∧ n.version = (c.toldAbout k.uri).length + 1
            ∧ (c.syncOn k).2.outgoing.messages
                = c.outgoing.messages ++ [n.sentIn language]) := by
  constructor
  · intro uri
    obtain ⟨ns, h⟩ := exists_chronicle language calls uri
    exact ⟨ns, h.told, h.ordered, h.version_le, fun hnone => (h.complete hnone).2.2⟩
  · intro k hnone c
    obtain ⟨ns, h⟩ := exists_chronicle language calls k.uri
    have hsilent : c.documents.news k.uri k.text = none ↔ lastSynced calls k.uri = some k.text :=
      h.no_news_iff hnone.before
    constructor
    · intro hsame
      rw [syncOn_of_no_news (hsilent.mpr hsame)]
      rfl
    · intro hdiffers
      obtain ⟨n, hnews⟩ := Option.ne_none_iff_exists'.mp fun hnews => hdiffers (hsilent.mp hnews)
      obtain ⟨huri, htext⟩ := news_eq_some hnews
      exact ⟨n, huri, htext, h.tells hnone hnews⟩

/-- An opening that fails is made again, and a change that fails keeps its version. -/
example :
    let calls : List SyncCall :=
      [⟨"file:///a.rs", "a", .broken⟩, ⟨"file:///a.rs", "a", .intact⟩,
        ⟨"file:///a.rs", "b", .broken⟩, ⟨"file:///a.rs", "a", .intact⟩]
    ((afterSyncs .rust calls).toldAbout "file:///a.rs").map
        (fun m => (m.path? ["params", "textDocument", "version"]).bind Json.nat?)
      = [some 1, some 3] := by
  decide +kernel

end Client

end SymbolQuery
