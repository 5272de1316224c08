import RootPermit.Foundation.Date
import RootPermit.Foundation.Markup
import RootPermit.Web.ApprovalPage

/-!
# The page as markup

This module embeds `service/web/src/render-html.ts`, which writes a page as markup.  The
texts of a page are escaped, but for the digest of the request, which is made of
hexadecimal digits, for numbers and for the time of expiry.

* `renderApprovalHtml_ready` — what is written is the emission of the page's elements;
* `approval_markup_fixed` — no text of a page changes its tags, and each text is read
  back as it was.
-/

namespace RootPermit
namespace Web

open Foundation Foundation.Markup

def escapeHtml (value : Text) : Text :=
  value.flatMap fun character =>
    if character = 0x26 then literal "&amp;"
    else if character = 0x3c then literal "&lt;"
    else if character = 0x3e then literal "&gt;"
    else if character = 0x27 then literal "&#39;"
    else if character = 0x22 then literal "&quot;"
    else [character]

/-- The changes of one kind. -/
def renderList (changes : List PackageChange) : Text :=
  if changes.length = 0 then literal "None"
  else changes.flatMap fun change =>
    literal "<li><strong>" ++ escapeHtml change.name ++ literal "</strong> " ++
      escapeHtml change.version ++ literal "</li>"

def renderNote : Option Text → Text
  | none => []
  | some text =>
      literal "<aside class=\"agent-note\" aria-label=\"Untrusted agent explanation\">" ++
        literal "<h2>Agent explanation (untrusted)</h2><p>" ++ escapeHtml text ++
        literal "</p></aside>"

def renderReady (page : ReadyApprovalPage) : Except WebError Text := do
  let consequences := page.consequences
  let expiry ← orFault (.error "Invalid time value")
    (Date.toISOString page.request.expiresAtUnixMs)
  return literal "<main class=\"approval\"><header><p class=\"eyebrow\">" ++
    literal "Approval required</p><h1>Install " ++ escapeHtml consequences.target.name ++
    literal " on " ++ escapeHtml page.request.device ++
    literal "</h1></header><section class=\"consequences\" " ++
    literal "aria-label=\"Broker-verified package consequences\">" ++
    literal "<h2>Broker-verified transaction</h2><dl><dt>Target</dt><dd>" ++
    escapeHtml consequences.target.name ++ literal " " ++
    escapeHtml consequences.target.version ++
    literal "</dd><dt>Dependencies</dt><dd>" ++ renderList consequences.dependencies ++
    literal "</dd><dt>Removals</dt><dd>" ++ renderList consequences.removals ++
    literal "</dd><dt>Downgrades</dt><dd>" ++ renderList consequences.downgrades ++
    literal "</dd><dt>Origin</dt><dd>" ++ escapeHtml consequences.origin ++
    literal "</dd><dt>Archive impact</dt><dd>" ++ consequences.archiveBytes.toText ++
    literal " bytes</dd><dt>Disk impact</dt><dd>" ++ consequences.diskBytes.toText ++
    literal " bytes</dd><dt>Policy</dt><dd>" ++ escapeHtml page.request.policy ++
    literal "</dd><dt>Request digest</dt><dd><code>" ++ page.request.digest ++
    literal "</code></dd></dl></section>" ++ renderNote page.untrustedAgentNote ++
    literal "<p class=\"expiry\">Expires at " ++ expiry ++
    literal "</p><div class=\"actions\"><button type=\"button\" data-decision=\"deny\">" ++
    literal "Deny with passkey</button><button type=\"button\" data-decision=\"approve\">" ++
    literal "Approve with passkey</button></div></main>"

def renderBlocked (page : BlockedApprovalPage) : Text :=
  literal "<main class=\"approval blocked\" aria-live=\"assertive\"><p class=\"eyebrow\">" ++
    literal "Approval unavailable</p><h1>" ++ escapeHtml page.heading ++
    literal "</h1><p>" ++ escapeHtml page.message ++ literal "</p><p class=\"code\">" ++
    page.code.text ++ literal "</p></main>"

def renderApprovalHtml : ApprovalPage → Except WebError Text
  | .blocked page => .ok (renderBlocked page)
  | .ready page => renderReady page

/-! ### What the page says -/

/-- The tags of a page with the texts behind them, as they are before they are escaped. -/
def changeElements (change : PackageChange) : List Element :=
  [{ tag := literal "li", text := [] },
    { tag := literal "strong", text := change.name },
    { tag := literal "/strong", text := literal " " ++ change.version },
    { tag := literal "/li", text := [] }]

def listElements (changes : List PackageChange) : List Element :=
  { tag := literal "dd", text := if changes = [] then literal "None" else [] } ::
    changes.flatMap changeElements ++ [{ tag := literal "/dd", text := [] }]

def asideTag : Text :=
  literal "aside class=\"agent-note\" aria-label=\"Untrusted agent explanation\""

def noteElements : Option Text → List Element
  | none => []
  | some text =>
      [{ tag := asideTag, text := [] },
        { tag := literal "h2", text := literal "Agent explanation (untrusted)" },
        { tag := literal "/h2", text := [] },
        { tag := literal "p", text },
        { tag := literal "/p", text := [] },
        { tag := literal "/aside", text := [] }]

/-- A term of the page. -/
def termElements (name : String) : List Element :=
  [{ tag := literal "dt", text := literal name }, { tag := literal "/dt", text := [] }]

/-- A term and its description. -/
def entryElements (name : String) (text : Text) : List Element :=
  termElements name ++
    [{ tag := literal "dd", text }, { tag := literal "/dd", text := [] }]

def sectionTag : Text :=
  literal "section class=\"consequences\" aria-label=\"Broker-verified package consequences\""

def headerElements (page : ReadyApprovalPage) : List Element :=
  [{ tag := literal "main class=\"approval\"", text := [] },
    { tag := literal "header", text := [] },
    { tag := literal "p class=\"eyebrow\"", text := literal "Approval required" },
    { tag := literal "/p", text := [] },
    { tag := literal "h1"
      text := literal "Install " ++ page.consequences.target.name ++ literal " on " ++
        page.request.device },
    { tag := literal "/h1", text := [] },
    { tag := literal "/header", text := [] }]

/-- The consequences, up to the end of their section. -/
def sectionElements (page : ReadyApprovalPage) : List Element :=
  let consequences := page.consequences
  [{ tag := sectionTag, text := [] },
    { tag := literal "h2", text := literal "Broker-verified transaction" },
    { tag := literal "/h2", text := [] }, { tag := literal "dl", text := [] }] ++
    entryElements "Target"
      (consequences.target.name ++ literal " " ++ consequences.target.version) ++
    termElements "Dependencies" ++ listElements consequences.dependencies ++
    termElements "Removals" ++ listElements consequences.removals ++
    termElements "Downgrades" ++ listElements consequences.downgrades ++
    entryElements "Origin" consequences.origin ++
    entryElements "Archive impact" (consequences.archiveBytes.toText ++ literal " bytes") ++
    entryElements "Disk impact" (consequences.diskBytes.toText ++ literal " bytes") ++
    entryElements "Policy" page.request.policy ++ termElements "Request digest" ++
    [{ tag := literal "dd", text := [] },
      { tag := literal "code", text := page.request.digest },
      { tag := literal "/code", text := [] }, { tag := literal "/dd", text := [] },
      { tag := literal "/dl", text := [] }, { tag := literal "/section", text := [] }]

/-- The button of a decision. -/
def decisionTag : Decision → Text
  | .deny => literal "button type=\"button\" data-decision=\"deny\""
  | .approve => literal "button type=\"button\" data-decision=\"approve\""

def footerElements (expiry : Text) : List Element :=
  [{ tag := literal "p class=\"expiry\"", text := literal "Expires at " ++ expiry },
    { tag := literal "/p", text := [] },
    { tag := literal "div class=\"actions\"", text := [] },
    { tag := decisionTag .deny, text := literal "Deny with passkey" },
    { tag := literal "/button", text := [] },
    { tag := decisionTag .approve, text := literal "Approve with passkey" },
    { tag := literal "/button", text := [] }, { tag := literal "/div", text := [] },
    { tag := literal "/main", text := [] }]

/-- The elements of a page where no decision can be made. -/
def BlockedApprovalPage.elements (page : BlockedApprovalPage) : List Element :=
  [{ tag := literal "main class=\"approval blocked\" aria-live=\"assertive\"", text := [] },
    { tag := literal "p class=\"eyebrow\"", text := literal "Approval unavailable" },
    { tag := literal "/p", text := [] }, { tag := literal "h1", text := page.heading },
    { tag := literal "/h1", text := [] }, { tag := literal "p", text := page.message },
    { tag := literal "/p", text := [] },
    { tag := literal "p class=\"code\"", text := page.code.text },
    { tag := literal "/p", text := [] }, { tag := literal "/main", text := [] }]

def ReadyApprovalPage.elements (page : ReadyApprovalPage) (expiry : Text) : List Element :=
  headerElements page ++ sectionElements page ++ noteElements page.untrustedAgentNote ++
    footerElements expiry

/-! ### What is written -/

theorem escapeHtml_eq_escape (value : Text) : escapeHtml value = escape value := by
  unfold escapeHtml escape
  congr 1
  funext character
  by_cases hPlain : Significant character
  · rcases significant_iff.mp hPlain with rfl | rfl | rfl | rfl | rfl <;> decide
  · rw [escapeUnit_of_not_significant hPlain]
    rw [significant_iff] at hPlain
    push Not at hPlain
    obtain ⟨hAmp, hLt, hGt, hQuote, hDouble⟩ := hPlain
    simp only [hAmp, hLt, hGt, hQuote, hDouble, if_false]

@[simp] theorem emit_nil : emit [] = [] := rfl

theorem emit_cons (element : Element) (rest : List Element) :
    emit (element :: rest) = element.emit ++ emit rest := rfl

@[simp] theorem emit_append (first second : List Element) :
    emit (first ++ second) = emit first ++ emit second :=
  List.flatMap_append

theorem emit_changeElements (change : PackageChange) :
    emit (changeElements change) =
      literal "<li><strong>" ++ escapeHtml change.name ++ literal "</strong> " ++
        escapeHtml change.version ++ literal "</li>" := by
  simp only [changeElements, emit, List.flatMap_cons, List.flatMap_nil, Element.emit,
    escapeHtml_eq_escape, escape_append, List.append_assoc, List.cons_append,
    List.append_nil]
  rfl

theorem emit_listElements (changes : List PackageChange) :
    emit (listElements changes) =
      literal "<dd>" ++ renderList changes ++ literal "</dd>" := by
  have hChanges : emit (changes.flatMap changeElements) = changes.flatMap fun change =>
      literal "<li><strong>" ++ escapeHtml change.name ++ literal "</strong> " ++
        escapeHtml change.version ++ literal "</li>" := by
    induction changes with
    | nil => rfl
    | cons change rest ih =>
        rw [List.flatMap_cons, emit_append, ih, emit_changeElements, List.flatMap_cons]
  unfold listElements renderList
  rw [List.cons_append, emit_cons, emit_append, hChanges]
  cases changes with
  | nil => rfl
  | cons change rest => rfl

theorem emit_noteElements (note : Option Text) :
    emit (noteElements note) = renderNote note := by
  cases note with
  | none => rfl
  | some text =>
      simp only [noteElements, renderNote, emit, List.flatMap_cons, List.flatMap_nil,
        Element.emit, escapeHtml_eq_escape, List.append_assoc, List.cons_append,
        List.append_nil]
      rfl

theorem emit_header (page : ReadyApprovalPage) :
    emit (headerElements page) =
      literal "<main class=\"approval\"><header><p class=\"eyebrow\">" ++
        literal "Approval required</p><h1>Install " ++
        escapeHtml page.consequences.target.name ++ literal " on " ++
        escapeHtml page.request.device ++ literal "</h1></header>" := by
  simp only [headerElements, emit, List.flatMap_cons, List.flatMap_nil, Element.emit,
    escapeHtml_eq_escape, escape_append, List.append_assoc, List.cons_append,
    List.append_nil]
  rfl

/-- The text has no character that means something in markup. -/
def Plain (text : Text) : Prop :=
  ∀ unit ∈ text, ¬ Significant unit

theorem plain_of_all {text : Text}
    (h : text.all (fun unit => decide (¬ Significant unit)) = true) : Plain text :=
  fun unit hUnit => of_decide_eq_true (List.all_eq_true.mp h unit hUnit)

theorem plain_toText (number : Double) : Plain number.toText := by
  intro unit hUnit
  have hUnits : Plain Double.textUnits := plain_of_all (by decide)
  exact hUnits unit (Double.toText_subset number hUnit)

theorem plain_of_toISOString {time : Double} {text : Text}
    (h : Date.toISOString time = some text) : Plain text := by
  intro unit hUnit
  have hUnits : Plain Date.textUnits := plain_of_all (by decide)
  exact hUnits unit (Date.toISOString_subset h hUnit)

set_option maxRecDepth 4000 in
theorem emit_section (page : ReadyApprovalPage) (hDigest : Plain page.request.digest) :
    emit (sectionElements page) =
      literal "<section class=\"consequences\" " ++
        literal "aria-label=\"Broker-verified package consequences\">" ++
        literal "<h2>Broker-verified transaction</h2><dl><dt>Target</dt><dd>" ++
        escapeHtml page.consequences.target.name ++ literal " " ++
        escapeHtml page.consequences.target.version ++
        literal "</dd><dt>Dependencies</dt><dd>" ++
        renderList page.consequences.dependencies ++
        literal "</dd><dt>Removals</dt><dd>" ++ renderList page.consequences.removals ++
        literal "</dd><dt>Downgrades</dt><dd>" ++
        renderList page.consequences.downgrades ++
        literal "</dd><dt>Origin</dt><dd>" ++ escapeHtml page.consequences.origin ++
        literal "</dd><dt>Archive impact</dt><dd>" ++
        page.consequences.archiveBytes.toText ++
        literal " bytes</dd><dt>Disk impact</dt><dd>" ++
        page.consequences.diskBytes.toText ++
        literal " bytes</dd><dt>Policy</dt><dd>" ++ escapeHtml page.request.policy ++
        literal "</dd><dt>Request digest</dt><dd><code>" ++ page.request.digest ++
        literal "</code></dd></dl></section>" := by
  unfold sectionElements
  simp only [emit_append, emit_listElements, entryElements, termElements, emit_cons,
    emit_nil, Element.emit, escapeHtml_eq_escape, escape_append, escape_of_plain hDigest,
    escape_of_plain (plain_toText _), List.append_assoc, List.cons_append,
    List.append_nil]
  rfl

set_option maxRecDepth 4000 in
theorem emit_footer {expiry : Text} (hExpiry : Plain expiry) :
    emit (footerElements expiry) =
      literal "<p class=\"expiry\">Expires at " ++ expiry ++
        literal "</p><div class=\"actions\"><button type=\"button\" data-decision=\"deny\">" ++
        literal "Deny with passkey</button><button type=\"button\" data-decision=\"approve\">" ++
        literal "Approve with passkey</button></div></main>" := by
  simp only [footerElements, emit, List.flatMap_cons, List.flatMap_nil, Element.emit,
    escape_append, escape_of_plain hExpiry, List.append_assoc, List.cons_append,
    List.append_nil]
  rfl

theorem renderBlocked_eq_emit (page : BlockedApprovalPage) :
    renderBlocked page = emit page.elements := by
  have hCode : escape page.code.text = page.code.text := by
    cases page.code <;> decide +kernel
  simp only [renderBlocked, BlockedApprovalPage.elements, emit, List.flatMap_cons,
    List.flatMap_nil, Element.emit, escapeHtml_eq_escape, hCode, List.append_assoc,
    List.cons_append, List.append_nil]
  rfl

/-- What is written for a page is the emission of its elements. -/
theorem renderApprovalHtml_ready {page : ReadyApprovalPage} {html : Text}
    (hDigest : Plain page.request.digest)
    (h : renderApprovalHtml (.ready page) = .ok html) :
    ∃ expiry, Date.toISOString page.request.expiresAtUnixMs = some expiry ∧
      html = emit (page.elements expiry) := by
  simp only [renderApprovalHtml, renderReady, bind_eq_ok_iff, orFault_eq_ok_iff,
    pure_eq_ok, Except.ok.injEq] at h
  obtain ⟨expiry, hExpiry, hHtml⟩ := h
  refine ⟨expiry, hExpiry, ?_⟩
  rw [← hHtml, ReadyApprovalPage.elements, emit_append, emit_append, emit_append,
    emit_header, emit_section page hDigest, emit_noteElements,
    emit_footer (plain_of_toISOString hExpiry)]
  simp only [List.append_assoc]
  rfl

/-! ### Tags and texts -/

/-- The tags of a list of changes. -/
def listTags (count : Nat) : List Text :=
  literal "dd" ::
    (List.replicate count (["li", "strong", "/strong", "/li"].map literal)).flatten ++
    [literal "/dd"]

theorem map_tag_listElements (changes : List PackageChange) :
    (listElements changes).map Element.tag = listTags changes.length := by
  have hChanges : (changes.flatMap changeElements).map Element.tag =
      (List.replicate changes.length
        (["li", "strong", "/strong", "/li"].map literal)).flatten := by
    induction changes with
    | nil => rfl
    | cons change rest ih =>
        rw [List.flatMap_cons, List.map_append, ih, List.length_cons, List.replicate_succ,
          List.flatten_cons]
        rfl
  rw [listElements, List.cons_append, List.map_cons, List.map_append, hChanges]
  rfl

theorem isTag_listElements (changes : List PackageChange) :
    ∀ element ∈ listElements changes, IsTag element.tag := by
  have hEnds : ∀ tag ∈ [literal "dd", literal "/dd"], IsTag tag := by decide +kernel
  have hChange : ∀ tag ∈ ["li", "strong", "/strong", "/li"].map literal, IsTag tag := by
    decide +kernel
  intro element hElement
  have hTag := List.mem_map_of_mem (f := Element.tag) hElement
  rw [map_tag_listElements, listTags, List.cons_append, List.mem_cons, List.mem_append,
    List.mem_singleton] at hTag
  rcases hTag with hFirst | hInner | hLast
  · rw [hFirst]
    exact hEnds _ (by simp)
  · obtain ⟨tags, hTags, hMem⟩ := List.mem_flatten.mp hInner
    rw [List.eq_of_mem_replicate hTags] at hMem
    exact hChange _ hMem
  · rw [hLast]
    exact hEnds _ (by simp)

theorem isTag_elements (page : ReadyApprovalPage) (expiry : Text) :
    ∀ element ∈ page.elements expiry, IsTag element.tag := by
  have hNote : ∀ element ∈ noteElements page.untrustedAgentNote, IsTag element.tag := by
    cases page.untrustedAgentNote with
    | none => nofun
    | some text =>
        simp only [noteElements, List.forall_mem_cons, List.not_mem_nil, false_imp_iff,
          implies_true]
        decide +kernel
  have hLists : ∀ changes, (∀ element ∈ listElements changes, IsTag element.tag) ↔ True :=
    fun changes => iff_true_intro (isTag_listElements changes)
  simp only [ReadyApprovalPage.elements, headerElements, sectionElements, footerElements,
    entryElements, termElements, List.forall_mem_append, List.forall_mem_cons,
    List.not_mem_nil, false_imp_iff, implies_true, hLists, iff_true_intro hNote, and_true]
  decide +kernel

/-- Two pages with as many changes of each kind, both with a note or both without. -/
structure SameShape (first second : ReadyApprovalPage) : Prop where
  dependencies : first.consequences.dependencies.length =
    second.consequences.dependencies.length
  removals : first.consequences.removals.length = second.consequences.removals.length
  downgrades : first.consequences.downgrades.length =
    second.consequences.downgrades.length
  note : first.untrustedAgentNote.isSome = second.untrustedAgentNote.isSome

/-- The tags of a page depend on its shape only. -/
theorem map_tag_elements {first second : ReadyApprovalPage} {expiry other : Text}
    (h : SameShape first second) :
    (first.elements expiry).map Element.tag = (second.elements other).map Element.tag := by
  have hNote : (noteElements first.untrustedAgentNote).map Element.tag =
      (noteElements second.untrustedAgentNote).map Element.tag := by
    have hSome := h.note
    cases hFirst : first.untrustedAgentNote with
    | none =>
        rw [hFirst, Option.isSome_none, eq_comm, Option.isSome_eq_false_iff,
          Option.isNone_iff_eq_none] at hSome
        rw [hSome]
    | some text =>
        rw [hFirst, Option.isSome_some, eq_comm, Option.isSome_iff_exists] at hSome
        obtain ⟨note, hNote⟩ := hSome
        rw [hNote]
        rfl
  have hSection : (sectionElements first).map Element.tag =
      (sectionElements second).map Element.tag := by
    simp only [sectionElements, List.map_append, map_tag_listElements, h.dependencies,
      h.removals, h.downgrades]
    rfl
  simp only [ReadyApprovalPage.elements, List.map_append, hNote, hSection]
  rfl

/-- The aside of the note comes when the section of the consequences is over. -/
def AsideAfterSection (tags : List Text) : Prop :=
  ∃ front back, tags = front ++ asideTag :: back ∧ sectionTag ∈ front ∧
    literal "/section" ∈ front ∧ sectionTag ∉ back ∧ literal "/section" ∉ back

/-- Each text of the page is read back from behind its tag. -/
def ReadsBack (html : Text) (page : ReadyApprovalPage) : Prop :=
  ∃ expiry, Date.toISOString page.request.expiresAtUnixMs = some expiry ∧
    (scan html).map (fun element => unescape element.text) =
      [] :: (page.elements expiry).map Element.text

/-- The tags that are found in a page and its texts, as they are read back. -/
theorem scan_ready {page : ReadyApprovalPage} {html : Text}
    (hDigest : Plain page.request.digest)
    (h : renderApprovalHtml (.ready page) = .ok html) :
    ∃ expiry, Date.toISOString page.request.expiresAtUnixMs = some expiry ∧
      (scan html).map Element.tag = [] :: (page.elements expiry).map Element.tag ∧
      (scan html).map (fun element => unescape element.text) =
        [] :: (page.elements expiry).map Element.text := by
  obtain ⟨expiry, hExpiry, rfl⟩ := renderApprovalHtml_ready hDigest h
  refine ⟨expiry, hExpiry, ?_⟩
  rw [scan_emit (isTag_elements page expiry), List.map_cons, List.map_cons, List.map_map,
    List.map_map]
  refine ⟨rfl, congrArg ([] :: ·) ?_⟩
  apply List.map_congr_left
  intro element _
  exact unescape_escape element.text

/-- A page where no decision can be made has no button, whatever its texts are. -/
theorem decisionTag_not_mem_blocked (page : BlockedApprovalPage) (decision : Decision) :
    decisionTag decision ∉ (scan (renderBlocked page)).map Element.tag := by
  have hTags : ∀ element ∈ page.elements, IsTag element.tag := by
    simp only [BlockedApprovalPage.elements, List.forall_mem_cons, List.not_mem_nil,
      false_imp_iff, implies_true]
    decide +kernel
  rw [renderBlocked_eq_emit, scan_emit hTags, List.map_cons, List.map_map]
  simp only [BlockedApprovalPage.elements, List.map_cons, List.map_nil,
    Function.comp_apply]
  cases decision <;> decide +kernel

theorem asideAfterSection_elements {page : ReadyApprovalPage} {expiry : Text}
    (h : page.untrustedAgentNote ≠ none) :
    AsideAfterSection ([] :: (page.elements expiry).map Element.tag) := by
  obtain ⟨note, hNote⟩ := Option.ne_none_iff_exists'.mp h
  refine ⟨[] :: (headerElements page ++ sectionElements page).map Element.tag,
    ["h2", "/h2", "p", "/p", "/aside"].map literal ++
      (footerElements expiry).map Element.tag, ?_, ?_, ?_, ?_, ?_⟩
  · simp only [ReadyApprovalPage.elements, hNote, List.map_append]
    simp [noteElements]
  · simp [sectionElements]
  · simp [sectionElements]
  · simp only [footerElements, List.map_cons, List.map_nil]
    decide +kernel
  · simp only [footerElements, List.map_cons, List.map_nil]
    decide +kernel

theorem plain_hex (value : Bytes) : Plain (hex value) := by
  intro unit hUnit
  obtain ⟨byte, -, hDigit⟩ := List.mem_flatMap.mp hUnit
  have hByte := byte.toNat_lt
  have hAll : ∀ nibble < 16, ¬ Significant (hexDigit nibble) := by decide
  rw [List.mem_cons, List.mem_singleton] at hDigit
  rcases hDigit with rfl | rfl
  · exact hAll _ (by omega)
  · exact hAll _ (by omega)

/-- No text of a page changes its tags.  The digest of a request is written as it is,
so it has to be free of characters that mean something in markup; the pages that are made
of verified requests have such digests. -/
theorem approval_markup_fixed :
    (∀ (first second : ReadyApprovalPage) (html other : Text), SameShape first second →
      Plain first.request.digest → Plain second.request.digest →
      renderApprovalHtml (.ready first) = .ok html →
      renderApprovalHtml (.ready second) = .ok other →
      (scan html).map Element.tag = (scan other).map Element.tag ∧
        ReadsBack html first ∧ ReadsBack other second ∧
        (first.untrustedAgentNote ≠ none →
          AsideAfterSection ((scan html).map Element.tag))) ∧
    ∀ (verifiedRequests : List VerifiedBrokerRequest) (request : Nat) (now : Double)
      (page : ReadyApprovalPage),
      approvalPageFromVerifiedRequest verifiedRequests request now = .ok (.ready page) →
      Plain page.request.digest := by
  constructor
  · intro first second html other hShape hFirst hSecond hHtml hOther
    obtain ⟨expiry, hExpiry, hTags, hTexts⟩ := scan_ready hFirst hHtml
    obtain ⟨otherExpiry, hOtherExpiry, hOtherTags, hOtherTexts⟩ :=
      scan_ready hSecond hOther
    refine ⟨?_, ⟨expiry, hExpiry, hTexts⟩, ⟨otherExpiry, hOtherExpiry, hOtherTexts⟩, ?_⟩
    · rw [hTags, hOtherTags, map_tag_elements hShape]
    · intro hNote
      rw [hTags]
      exact asideAfterSection_elements hNote
  · intro verifiedRequests request now page hPage
    simp only [approvalPageFromVerifiedRequest, bind_eq_ok_iff, rejectIf_eq_ok_iff] at hPage
    obtain ⟨found, -, _, -, hReady⟩ := hPage
    split at hReady
    · cases hReady
    · rw [pure_eq_ok, Except.ok.injEq, ApprovalPage.ready.injEq] at hReady
      rw [← hReady]
      exact plain_hex _

/-- A page of one package, with some text for the digest and for the device. -/
def samplePage (digest device : Text) : ReadyApprovalPage where
  request :=
    { id := literal "AAAAAAAAAAAAAAAAAAAAAA"
      digest
      device
      policy := literal "default-install v12"
      expiresAtUnixMs := .finite 1800000300000 }
  consequences :=
    { target := { name := literal "ffmpeg", version := literal "7:6.1.1-3ubuntu5" }
      dependencies := []
      removals := []
      downgrades := []
      origin := literal "Ubuntu noble / amd64"
      archiveBytes := .finite 42000000
      diskBytes := .finite 94000000 }
  untrustedAgentNote := none
  allowedDecisions := [.approve, .deny]

theorem renderApprovalHtml_samplePage (digest device : Text) :
    ∃ html, renderApprovalHtml (.ready (samplePage digest device)) = .ok html := by
  have hExpiry : Date.toISOString (samplePage digest device).request.expiresAtUnixMs =
      some (Date.timeText 1800000300000) := by
    have hRange : Date.toISOString (.finite 1800000300000) =
        some (Date.timeText 1800000300000) := by decide +kernel
    exact hRange
  simp only [renderApprovalHtml, renderReady, hExpiry, orFault, ok_bind, pure_eq_ok,
    Except.ok.injEq, exists_eq']

theorem approval_markup_fixed_sample :
    ∃ html other,
      renderApprovalHtml (.ready (samplePage (literal "04") (literal "vm"))) = .ok html ∧
      renderApprovalHtml (.ready (samplePage (literal "5f") (literal "<b>vm</b>"))) =
        .ok other ∧
      (scan html).map Element.tag = (scan other).map Element.tag := by
  have hPlain : Plain (literal "04") ∧ Plain (literal "5f") :=
    ⟨plain_of_all (by decide +kernel), plain_of_all (by decide +kernel)⟩
  obtain ⟨html, hHtml⟩ := renderApprovalHtml_samplePage (literal "04") (literal "vm")
  obtain ⟨other, hOther⟩ :=
    renderApprovalHtml_samplePage (literal "5f") (literal "<b>vm</b>")
  have hShape : SameShape (samplePage (literal "04") (literal "vm"))
      (samplePage (literal "5f") (literal "<b>vm</b>")) := ⟨rfl, rfl, rfl, rfl⟩
  exact ⟨html, other, hHtml, hOther,
    (approval_markup_fixed.1 _ _ html other hShape hPlain.1 hPlain.2 hHtml hOther).1⟩

set_option maxRecDepth 20000 in
/-- A page whose digest is a tag has one tag more. -/
theorem digest_is_not_escaped :
    ¬ ∀ (first second : ReadyApprovalPage) (html other : Text), SameShape first second →
      renderApprovalHtml (.ready first) = .ok html →
      renderApprovalHtml (.ready second) = .ok other →
      (scan html).map Element.tag = (scan other).map Element.tag := by
  intro h
  have hPages : (match renderApprovalHtml (.ready (samplePage (literal "<b>") [])),
      renderApprovalHtml (.ready (samplePage [] [])) with
      | .ok html, .ok other =>
          decide ((scan html).map Element.tag ≠ (scan other).map Element.tag)
      | _, _ => false) = true := by
    decide +kernel
  split at hPages
  · rename_i html other hHtml hOther
    have hShape : SameShape (samplePage (literal "<b>") []) (samplePage [] []) :=
      ⟨rfl, rfl, rfl, rfl⟩
    exact of_decide_eq_true hPages (h _ _ html other hShape hHtml hOther)
  · cases hPages

end Web
end RootPermit
