import Mathlib.Data.List.TakeWhile
import Orchestrator.Execution.WorkspaceChanges
import Orchestrator.Kit.Occurrences

/-! # Pages of GitHub lists

The `next` URL of a `Link` header, and the loop that follows it (`providers/github.ts`). The
header is cut at its commas before the targets are read, so a target with a comma is lost, and
with it every later page.
-/

namespace Orchestrator

open Kit

/-- The target of one part of the header, by `/^\s*<([^>]+)>\s*;\s*rel="next"\s*$/`. -/
def nextLink (part : String) : Option String :=
  match part.toList.dropWhile isBlank with
  | '<' :: rest =>
      match rest.dropWhile (· ≠ '>') with
      | '>' :: behind =>
          match behind.dropWhile isBlank with
          | ';' :: parameter =>
              let relation := parameter.dropWhile isBlank
              let target := rest.takeWhile (· ≠ '>')
              if target ≠ [] ∧ "rel=\"next\"".toList.isPrefixOf relation ∧
                  (relation.drop "rel=\"next\"".toList.length).all isBlank then
                some (String.ofList target)
              else none
          | _ => none
      | _ => none
  | _ => none

/-- Parses the `next` URL from a `Link` header. -/
def nextPageUrl (link : Option String) : Option String :=
  link.bind fun link => (splitText ',' link).findSome? nextLink

/-! ## Following the pages -/

/-- A response: the items of its page, and its `Link` header. -/
structure PageResponse (α : Type) where
  items : List α
  link : Option String

inductive PaginationError (ε : Type)
  | request (failure : ε)
  | tooManyPages
  | foreignLink
  deriving DecidableEq

section Paginate

variable {α ε : Type}

/-- The rest of the loop, where `page` pages have been read and `pages` more may be. -/
def paginateFrom (send : Nat → String → Except ε (PageResponse α)) (sameApi : String → Bool) :
    Nat → Nat → String → List α → Except (PaginationError ε) (List α)
  | 0, _, _, _ => .error .tooManyPages
  | pages + 1, page, url, results =>
      match send page url with
      | .error failure => .error (.request failure)
      | .ok response =>
          let results := results ++ response.items
          match nextPageUrl response.link with
          | none => .ok results
          | some next =>
              if sameApi next then paginateFrom send sameApi pages (page + 1) next results
              else .error .foreignLink

/-- `paginate`; `send` answers the request for a page. -/
def paginate (send : Nat → String → Except ε (PageResponse α)) (sameApi : String → Bool)
    (url : String) : Except (PaginationError ε) (List α) :=
  paginateFrom send sameApi 50 0 url []

end Paginate

/-! ## What the server writes -/

/-- A target with its relation. A URL has no quotes, and no angle brackets either. -/
structure LinkTarget where
  url : String
  rel : String
  url_ne : url ≠ ""
  bare : '<' ∉ url.toList ∧ '>' ∉ url.toList ∧ '"' ∉ url.toList
  unquoted : '"' ∉ rel.toList

/-- `<url>; rel="name"`. -/
def LinkTarget.text (target : LinkTarget) : List Char :=
  '<' :: (target.url.toList ++ (">; rel=".toList ++ '"' :: (target.rel.toList ++ ['"'])))

def renderLinks (targets : List LinkTarget) : String :=
  String.ofList (", ".toList.intercalate (targets.map (·.text)))

/-- The URL of the page that follows, as the server means it. -/
def nextTarget (targets : List LinkTarget) : Option String :=
  (targets.find? fun target => target.rel = "next").map (·.url)

/-! ## One part of the header -/

theorem append_dropWhile (p : Char → Bool) (text : List Char) :
    ∃ before, text = before ++ text.dropWhile p :=
  ⟨text.takeWhile p, List.takeWhile_append_dropWhile.symm⟩

/-- What a part with a target looks like. -/
theorem nextLink_shape {part url : String} (h : nextLink part = some url) :
    ∃ before blanks more behind, part.toList = before ++ '<' :: (url.toList ++ '>' :: (blanks ++
      ';' :: (more ++ ("rel=".toList ++ '"' :: ("next".toList ++ '"' :: behind))))) ∧
      '>' ∉ url.toList := by
  unfold nextLink at h
  rcases append_dropWhile isBlank part.toList with ⟨before, hbefore⟩
  split at h
  · rename_i rest hopen
    have htarget := List.takeWhile_append_dropWhile (p := fun c => decide (c ≠ '>')) (l := rest)
    split at h
    · rename_i behind hclose
      rcases append_dropWhile isBlank behind with ⟨blanks, hblanks⟩
      split at h
      · rename_i parameter hsemicolon
        rcases append_dropWhile isBlank parameter with ⟨more, hmore⟩
        simp only at h
        split at h
        · rename_i hrelation
          rcases List.isPrefixOf_iff_prefix.mp hrelation.2.1 with ⟨rest', hrest⟩
          have hurl : url.toList = rest.takeWhile (fun c => decide (c ≠ '>')) := by
            rw [← Option.some.inj h, String.toList_ofList]
          refine ⟨before, blanks, more, rest', ?_, ?_⟩
          · rw [hbefore, hopen, ← htarget, hclose, hurl, hblanks, hsemicolon, hmore, ← hrest]
            rfl
          · intro hmem
            rw [hurl] at hmem
            have hother := List.mem_takeWhile_imp hmem
            exact absurd hother (by decide)
        · cases h
      · cases h
    · cases h
  · cases h

/-- A part that the server wrote as a whole. -/
theorem nextLink_text (target : LinkTarget) (h : target.rel = "next") {lead : List Char}
    (hlead : ∀ character ∈ lead, isBlank character = true) :
    nextLink (String.ofList (lead ++ target.text)) = some target.url := by
  have hopen : (lead ++ target.text).dropWhile isBlank = target.text := by
    rw [List.dropWhile_append_of_pos hlead]
    rfl
  have hinner : ∀ character ∈ target.url.toList, decide (character ≠ '>') = true :=
    fun character hmem => decide_eq_true fun heq => target.bare.2.1 (heq ▸ hmem)
  have hne : target.url.toList ≠ [] :=
    fun hempty => target.url_ne (String.toList_eq_nil_iff.mp hempty)
  have hrest : ∀ behind, (target.url.toList ++ '>' :: behind).dropWhile (· ≠ '>') =
      '>' :: behind := by
    intro behind
    rw [List.dropWhile_append_of_pos hinner]
    rfl
  have hfirst : ∀ behind, (target.url.toList ++ '>' :: behind).takeWhile (· ≠ '>') =
      target.url.toList := by
    intro behind
    rw [List.takeWhile_append_of_pos hinner]
    simp
  have htext : target.text = '<' :: (target.url.toList ++ '>' :: "; rel=\"next\"".toList) := by
    unfold LinkTarget.text
    rw [h]
    rfl
  unfold nextLink
  rw [String.toList_ofList, hopen, htext]
  simp only [hrest, hfirst]
  have hblanks : "; rel=\"next\"".toList.dropWhile isBlank = ';' :: " rel=\"next\"".toList := by
    decide
  simp only [hblanks]
  have hrelation : " rel=\"next\"".toList.dropWhile isBlank = "rel=\"next\"".toList := by decide
  simp only [hrelation]
  rw [if_pos ⟨hne, by decide, by decide⟩, String.ofList_toList]

/-- No comma is left of the text in front of the target, so nothing else of it is read. -/
theorem text_eq (target : LinkTarget) (lead : List Char) :
    lead ++ target.text = (lead ++ '<' :: (target.url.toList ++ ">; rel=".toList)) ++
      '"' :: (target.rel.toList ++ ['"']) := by
  unfold LinkTarget.text
  simp

theorem count_append_cons (character : Char) (before after : List Char) :
    (before ++ character :: after).count character =
      before.count character + after.count character + 1 := by
  rw [List.count_append, List.count_cons_self]
  omega

/-- What is read from any part of a target is that target, and only where no comma cuts it. -/
theorem nextLink_part {target : LinkTarget} {lead part : List Char} {url : String}
    (hlead : '<' ∉ lead ∧ '"' ∉ lead) (hpart : part ∈ (lead ++ target.text).splitOn ',')
    (h : nextLink (String.ofList part) = some url) :
    target.rel = "next" ∧ ',' ∉ target.url.toList ∧ url = target.url := by
  rcases nextLink_shape h with ⟨before, blanks, more, behind, hshape, hclose⟩
  rw [String.toList_ofList] at hshape
  rcases infix_of_mem_splitOn hpart with ⟨left, right, hwhole⟩
  -- The text has two quotes, so the two that the part has are these.
  let front := left ++ before ++ '<' :: (url.toList ++ '>' :: (blanks ++ ';' :: (more ++
    "rel=".toList)))
  have hread : lead ++ target.text = front ++ '"' :: ("next".toList ++ '"' :: (behind ++ right)) := by
    rw [← hwhole, hshape]
    simp only [front, List.append_assoc, List.cons_append]
  have hwritten := text_eq target lead
  have hquiet : '"' ∉ lead ++ '<' :: (target.url.toList ++ ">; rel=".toList) := by
    simp only [List.mem_append, List.mem_cons, not_or]
    exact ⟨hlead.2, by decide, target.bare.2.2, by decide⟩
  have hfront : '"' ∉ front := by
    have htwo : (lead ++ target.text).count '"' = 2 := by
      have hrelation : (target.rel.toList ++ ['"']).count '"' = 1 := by
        rw [List.count_append, List.count_eq_zero.mpr target.unquoted]
        rfl
      rw [hwritten, count_append_cons, List.count_eq_zero.mpr hquiet, hrelation]
    have hcount := count_append_cons '"' front ("next".toList ++ '"' :: (behind ++ right))
    rw [← hread, htwo, count_append_cons] at hcount
    rw [← List.count_eq_zero]
    omega
  rw [hread] at hwritten
  rcases append_cons_inj hfront hquiet hwritten with ⟨hnames, hrelation⟩
  have hrel := append_cons_inj (show '"' ∉ "next".toList by decide) target.unquoted hrelation
  -- It has one opening bracket in front of them, so that one is the target's.
  have hopen : '<' ∉ left ++ before := by
    have hcount := congrArg (List.count '<') hnames
    have hnone : (target.url.toList ++ ">; rel=".toList).count '<' = 0 := by
      rw [List.count_eq_zero, List.mem_append, not_or]
      exact ⟨target.bare.1, by decide⟩
    simp only [front] at hcount
    rw [count_append_cons, count_append_cons, hnone, List.count_eq_zero.mpr hlead.1] at hcount
    rw [← List.count_eq_zero]
    omega
  rcases append_cons_inj hopen hlead.1 hnames with ⟨_, htarget⟩
  have hurl : url.toList = target.url.toList :=
    (append_cons_inj hclose target.bare.2.1 htarget).1
  refine ⟨(String.toList_inj.mp hrel.1).symm, ?_, String.toList_inj.mp hurl⟩
  intro hcomma
  have hmem : ',' ∈ part := by
    rw [hshape, hurl]
    simp [hcomma]
  exact not_mem_of_mem_splitOn hpart hmem

/-- All parts of a target together. -/
theorem findSome_target (target : LinkTarget) {lead : List Char}
    (hblank : ∀ character ∈ lead, isBlank character = true) (hcomma : ',' ∉ lead) :
    (((lead ++ target.text).splitOn ',').map String.ofList).findSome? nextLink =
      if target.rel = "next" ∧ ',' ∉ target.url.toList then some target.url else none := by
  by_cases hnext : target.rel = "next" ∧ ',' ∉ target.url.toList
  · have hwhole : ',' ∉ lead ++ target.text := by
      unfold LinkTarget.text
      rw [hnext.1]
      simp only [List.mem_append, List.mem_cons, not_or]
      exact ⟨hcomma, by decide, hnext.2, by decide, by decide, by decide, by decide, by simp⟩
    rw [if_pos hnext, List.splitOn_eq_singleton hwhole, List.map_singleton,
      List.findSome?_singleton]
    exact nextLink_text target hnext.1 hblank
  · rw [if_neg hnext, List.findSome?_eq_none_iff]
    intro text hmem
    rcases List.mem_map.mp hmem with ⟨part, hpart, rfl⟩
    have hclean : '<' ∉ lead ∧ '"' ∉ lead :=
      ⟨fun hopen => absurd (hblank _ hopen) (by decide),
        fun hquote => absurd (hblank _ hquote) (by decide)⟩
    cases hread : nextLink (String.ofList part) with
    | none => rfl
    | some url =>
        have hpair := nextLink_part hclean hpart hread
        exact absurd ⟨hpair.1, hpair.2.1⟩ hnext

/-! ## The header -/

/-- What the parser makes of one target. -/
def LinkTarget.read (target : LinkTarget) : Option String :=
  if target.rel = "next" ∧ ',' ∉ target.url.toList then some target.url else none

theorem findSome_links (targets : List LinkTarget) {lead : List Char}
    (hblank : ∀ character ∈ lead, isBlank character = true) (hcomma : ',' ∉ lead) :
    (((lead ++ ", ".toList.intercalate (targets.map (·.text))).splitOn ',').map
      String.ofList).findSome? nextLink = targets.findSome? (·.read) := by
  induction targets generalizing lead with
  | nil =>
      have hnone : nextLink (String.ofList lead) = none := by
        -- A link starts at an angle bracket, and the lead is blank.
        cases hread : nextLink (String.ofList lead) with
        | none => rfl
        | some url =>
            rcases nextLink_shape hread with ⟨before, blanks, more, behind, hshape, _⟩
            have hopen : '<' ∈ lead := by
              rw [String.toList_ofList] at hshape
              rw [hshape]
              simp
            exact absurd (hblank '<' hopen) (by decide)
      rw [List.map_nil, List.intercalate_nil, List.append_nil, List.splitOn_eq_singleton hcomma,
        List.map_singleton, List.findSome?_singleton, hnone]
      rfl
  | cons target targets ih =>
      rw [List.findSome?_cons]
      have hfirst := findSome_target target hblank hcomma
      cases targets with
      | nil =>
          rw [List.map_singleton, List.intercalate_singleton, hfirst]
          unfold LinkTarget.read
          by_cases hnext : target.rel = "next" ∧ ',' ∉ target.url.toList
          · simp [hnext]
          · simp [hnext]
      | cons second targets =>
          have hspace : ∀ character ∈ [' '], isBlank character = true := by
            intro character hmem
            rw [List.mem_singleton.mp hmem]
            rfl
          have hrest := @ih [' '] hspace (by decide)
          -- The comma after the first target separates it from the others.
          have htext : lead ++ ", ".toList.intercalate
              ((target :: second :: targets).map (·.text)) = (lead ++ target.text) ++
                ',' :: ([' '] ++ ", ".toList.intercalate ((second :: targets).map (·.text))) := by
            rw [List.map_cons, List.map_cons, List.intercalate_cons_cons, List.append_assoc,
              List.append_assoc]
            rfl
          rw [htext, List.splitOn_append_cons_self, List.map_append, List.findSome?_append, hfirst,
            hrest]
          unfold LinkTarget.read
          by_cases hnext : target.rel = "next" ∧ ',' ∉ target.url.toList
          · simp [hnext]
          · simp [hnext]

theorem nextPageUrl_eq (targets : List LinkTarget) :
    nextPageUrl (some (renderLinks targets)) = targets.findSome? (·.read) := by
  have hlinks := @findSome_links targets [] (fun _ hmem => absurd hmem List.not_mem_nil)
    List.not_mem_nil
  unfold nextPageUrl renderLinks splitText
  rw [Option.bind_some, String.toList_ofList]
  exact hlinks

theorem comma_not_mem_read {targets : List LinkTarget} {url : String}
    (h : targets.findSome? (·.read) = some url) : ',' ∉ url.toList := by
  rcases List.exists_of_findSome?_eq_some h with ⟨target, _, hread⟩
  unfold LinkTarget.read at hread
  split at hread
  · rename_i hnext
    rw [← Option.some.inj hread]
    exact hnext.2
  · cases hread

/-- The parser finds the target that the server means, unless that has a comma. -/
theorem findSome_read_iff (targets : List LinkTarget) :
    targets.findSome? (·.read) = nextTarget targets ↔
      ∀ url, nextTarget targets = some url → ',' ∉ url.toList := by
  constructor
  · intro hsame url hnext
    exact comma_not_mem_read (hsame.trans hnext)
  · intro hplain
    induction targets with
    | nil => rfl
    | cons target targets ih =>
        unfold nextTarget at hplain ⊢
        rw [List.findSome?_cons]
        by_cases hrel : target.rel = "next"
        · rw [List.find?_cons_of_pos (by simp [hrel])] at hplain ⊢
          have hcomma := hplain target.url rfl
          simp [LinkTarget.read, hrel, hcomma]
        · rw [List.find?_cons_of_neg (by simp [hrel])] at hplain ⊢
          have hnone : target.read = none := by simp [LinkTarget.read, hrel]
          rw [hnone]
          exact ih hplain

/-! ## Runs of `paginate` -/

/-- A page as the server means it. -/
structure ServerPage (α : Type) where
  items : List α
  links : Option (List LinkTarget)

namespace ServerPage

variable {α ε : Type}

def next (page : ServerPage α) : Option String := page.links.bind nextTarget

/-- The page on the wire. -/
def response (page : ServerPage α) : PageResponse α := ⟨page.items, page.links.map renderLinks⟩

/-- The URL of the page that follows, if there is one, has no comma. -/
def Plain (page : ServerPage α) : Prop := ∀ url, page.next = some url → ',' ∉ url.toList

theorem nextPageUrl_response (page : ServerPage α) :
    nextPageUrl page.response.link = page.next ↔ page.Plain := by
  unfold response Plain next
  cases page.links with
  | none => simp [nextPageUrl]
  | some targets =>
      rw [Option.map_some, Option.bind_some, nextPageUrl_eq]
      exact findSome_read_iff targets

/-- The pages from `url` on, the next of each one as `follow` has it, with their URLs. -/
inductive Visits (server : Nat → String → Except ε (ServerPage α))
    (follow : ServerPage α → Option String) : Nat → String → List (String × ServerPage α) → Prop
  | last {number : Nat} {url : String} {page : ServerPage α} :
      server number url = .ok page → follow page = none → Visits server follow number url [(url, page)]
  | more {number : Nat} {url next : String} {page : ServerPage α}
      {visits : List (String × ServerPage α)} :
      server number url = .ok page → follow page = some next →
        Visits server follow (number + 1) next visits →
          Visits server follow number url ((url, page) :: visits)

variable {server : Nat → String → Except ε (ServerPage α)} {sameApi : String → Bool}

/-- What the loop returns are the items of the pages it has followed, as many as it may read. -/
theorem visits_of_paginateFrom {pages number : Nat} {url : String} {before results : List α}
    (h : paginateFrom (fun number url => (server number url).map response) sameApi pages number
      url before = .ok results) :
    ∃ visits, Visits server (fun page => nextPageUrl page.response.link) number url visits ∧
      results = before ++ visits.flatMap (·.2.items) ∧ visits.length ≤ pages := by
  induction pages generalizing number url before with
  | zero => cases h
  | succ pages ih =>
      cases hserver : server number url with
      | error failure =>
          simp only [paginateFrom, hserver, Except.map] at h
          cases h
      | ok page =>
          simp only [paginateFrom, hserver, Except.map] at h
          cases hnext : nextPageUrl page.response.link with
          | none =>
              rw [hnext] at h
              have hresults : before ++ page.items = results := Except.ok.inj h
              refine ⟨[(url, page)], .last hserver hnext, ?_, ?_⟩
              · simp [← hresults]
              · exact Nat.le_add_left 1 pages
          | some next =>
              rw [hnext] at h
              cases hapi : sameApi next with
              | false =>
                  simp only [hapi, Bool.false_eq_true, if_false] at h
                  cases h
              | true =>
                  simp only [hapi, if_true] at h
                  rcases ih h with ⟨visits, hvisits, hresults, hcount⟩
                  refine ⟨(url, page) :: visits, .more hserver hnext hvisits, ?_, ?_⟩
                  · rw [hresults, List.flatMap_cons, List.append_assoc]
                    rfl
                  · exact Nat.succ_le_succ hcount

theorem visits_head {follow : ServerPage α → Option String} {number : Nat} {url : String}
    {visits : List (String × ServerPage α)} (h : Visits server follow number url visits) :
    (visits.head?).map (·.1) = some url := by
  cases h with
  | last => rfl
  | more => rfl

/-- The pages that were followed are the server's list, if and only if no URL among them that
leads on has a comma. -/
theorem visits_iff {number : Nat} {url : String} {visits : List (String × ServerPage α)}
    (h : Visits server (fun page => nextPageUrl page.response.link) number url visits) :
    Visits server next number url visits ↔ ∀ visit ∈ visits, visit.2.Plain := by
  induction h with
  | @last number url page hserver hstop =>
      constructor
      · intro hlisted visit hmem
        rw [List.mem_singleton.mp hmem, ← nextPageUrl_response, hstop]
        cases hlisted with
        | last hsame hnone =>
            rw [hserver] at hsame
            cases hsame
            exact hnone.symm
        | more _ _ hmore => cases hmore
      · intro hplain
        have hsame := (nextPageUrl_response page).mpr (hplain (url, page) List.mem_cons_self)
        exact .last hserver (hsame.symm.trans hstop)
  | @more number url next' page visits hserver hfollow hrest ih =>
      constructor
      · intro hlisted
        cases hlisted with
        | last hsame hnone => cases hrest
        | @more _ _ other _ _ hsame hnext hmore =>
            rw [hserver] at hsame
            cases hsame
            -- Both lists go on at the same URL.
            have hurl : other = next' := by
              have hfirst := visits_head hmore
              rw [visits_head hrest] at hfirst
              exact (Option.some.inj hfirst).symm
            subst hurl
            intro visit hmem
            rcases List.mem_cons.mp hmem with rfl | hmem
            · rw [← nextPageUrl_response, hfollow, hnext]
            · exact ih.mp hmore visit hmem
      · intro hplain
        have hsame := (nextPageUrl_response page).mpr (hplain (url, page) List.mem_cons_self)
        exact .more hserver (hsame.symm.trans hfollow)
          (ih.mpr fun visit hmem => hplain visit (List.mem_cons_of_mem _ hmem))

end ServerPage

/-- The parser finds the next page unless its URL has a comma; a list that `paginate` returns is
the server's whole list if and only if that never happened on its pages. -/
theorem nextPageUrl_rendered {α ε : Type} (targets : List LinkTarget)
    (server : Nat → String → Except ε (ServerPage α)) (sameApi : String → Bool) (url : String)
    (results : List α) :
    (nextPageUrl (some (renderLinks targets)) = nextTarget targets ↔
      ∀ url, nextTarget targets = some url → ',' ∉ url.toList) ∧
    (paginate (fun number url => (server number url).map (·.response)) sameApi url = .ok results →
      ∃ visits, ServerPage.Visits server (fun page => nextPageUrl page.response.link) 0 url visits ∧
        results = visits.flatMap (·.2.items) ∧
        (ServerPage.Visits server ServerPage.next 0 url visits ↔
          ∀ visit ∈ visits, visit.2.Plain)) := by
  constructor
  · rw [nextPageUrl_eq]
    exact findSome_read_iff targets
  · intro h
    rcases ServerPage.visits_of_paginateFrom h with ⟨visits, hvisits, hresults, _⟩
    exact ⟨visits, hvisits, hresults, ServerPage.visits_iff hvisits⟩

/-- The second page of a list that is asked for by two labels. -/
def labelledPage : LinkTarget where
  url := "https://api.github.com/repositories/1/issues?labels=bug,urgent&page=2"
  rel := "next"
  url_ne := by decide
  bare := by decide
  unquoted := by decide

/-- A server with that page behind its first one. -/
def labelledServer (number : Nat) (_ : String) : Except Unit (ServerPage Nat) :=
  if number = 0 then .ok ⟨[1], some [labelledPage]⟩ else .ok ⟨[2], none⟩

theorem nextPageUrl_rendered_labelled :
    ∃ visits, ServerPage.Visits labelledServer (fun page => nextPageUrl page.response.link) 0
        "https://api.github.com/repositories/1/issues" visits ∧
      [1] = visits.flatMap (·.2.items) ∧
      (ServerPage.Visits labelledServer ServerPage.next 0
        "https://api.github.com/repositories/1/issues" visits ↔
          ∀ visit ∈ visits, visit.2.Plain) :=
  (nextPageUrl_rendered [labelledPage] labelledServer (fun _ => true)
    "https://api.github.com/repositories/1/issues" [1]).2 (by decide +kernel)

/-- Its URL is not found, so its items are left out and nothing fails. -/
theorem nextPageUrl_comma :
    nextPageUrl (some (renderLinks [labelledPage])) = none ∧
      nextTarget [labelledPage] = some labelledPage.url ∧
      paginate (fun number url => (labelledServer number url).map (·.response)) (fun _ => true)
        "https://api.github.com/repositories/1/issues" = .ok [1] :=
  ⟨by decide +kernel, by decide +kernel, by decide +kernel⟩

end Orchestrator
