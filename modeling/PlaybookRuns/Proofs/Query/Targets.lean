import PlaybookRuns.Proofs.Query.Request

/-!
# Where links lead

A link of a page reorders the parameters of the request, leaves out their windows and escapes what
is left. Main statement: what it leads to is the same request at another offset, and the pages that
the links lead to are linked with each other.
-/

namespace PlaybookRuns.Query

variable {φ κ ρ : Type} [FieldSet φ] [SortKeys κ ρ]

/-- The request for the page at an offset of the same listing. -/
def ListRequest.atOffset (request : ListRequest φ κ) (offset : Int64) : ListRequest φ κ :=
  { request with window := ⟨request.window.limit, offset⟩ }

/-- The links that a page has. -/
def Links.toList (links : Links) : List String :=
  links.first :: links.last :: (links.next.toList ++ links.previous.toList)

/-- Whether a link leads to a request: its parameters are accepted as that request. -/
def LeadsTo (resource : Resource) (link : String) (request : ListRequest φ κ) : Prop :=
  ∃ params, targetOf? link = some params ∧ ListRequest.ofParams resource params = .ok request

/-- Whether the links of a page lead from its request to the other pages of a listing with `total`
rows. -/
structure Links.LeadFrom (links : Links) (resource : Resource) (path : String)
    (request : ListRequest φ κ) (total : Int64) : Prop where
  first : LeadsTo resource links.first (request.atOffset 0)
  last : LeadsTo resource links.last (request.atOffset (request.window.lastOffset total))
  /-- The next page starts where this one ends, and there is one exactly where that lies before the
  total. -/
  next_isSome : links.next.isSome ↔
    request.window.offset.toInt + request.window.limit.toInt < total.toInt
  next : ∀ link, links.next = some link → ∃ offset : Int64,
    offset.toInt = request.window.offset.toInt + request.window.limit.toInt ∧
      LeadsTo resource link (request.atOffset offset)
  /-- The previous page starts a limit before this one, but not before the first row, and there is
  one exactly where this page does not start with that row. -/
  previous_isSome : links.previous.isSome ↔ 0 < request.window.offset.toInt
  previous : ∀ link, links.previous = some link → ∃ offset : Int64,
    offset.toInt = max (request.window.offset.toInt - request.window.limit.toInt) 0 ∧
      LeadsTo resource link (request.atOffset offset)
  /-- The page that a link leads to has the same links to the first and to the last page. -/
  ends_eq : ∀ link ∈ links.toList, ∀ (params : Params) (target : ListRequest φ κ),
    targetOf? link = some params → ListRequest.ofParams resource params = .ok target →
      (Links.of path params target.window total).first = links.first ∧
        (Links.of path params target.window total).last = links.last
  /-- The next page links back to this one, whatever its own total is. -/
  back : ∀ link (params : Params) (target : ListRequest φ κ), links.next = some link →
    targetOf? link = some params → ListRequest.ofParams resource params = .ok target →
      ∀ total', ∃ previous, (Links.of path params target.window total').previous = some previous ∧
        LeadsTo resource previous request

section Targets

variable {resource : Resource} {path : String} {params : Params} {request : ListRequest φ κ}
  {offset total : Int64}

/-- The parameters of a link are accepted as the request at the offset of the link. -/
theorem targetOf?_linkTo_eq_some_iff (hpath : '?' ∉ path.toList)
    (h : ListRequest.ofParams resource params = .ok request) (hoffset : 0 ≤ offset)
    {params' : Params} {target : ListRequest φ κ} :
    targetOf? (linkTo path params request.window.limit offset) = some params' ∧
        ListRequest.ofParams resource params' = .ok target ↔
      params' = paramsAt params request.window.limit offset ∧ target = request.atOffset offset := by
  have hlimit := (ListRequest.window_valid_of_ofParams h).limit_pos
  have haccepted : ListRequest.ofParams resource (paramsAt params request.window.limit offset) =
      .ok (request.atOffset offset) := by
    have hvalid : Window.Valid ⟨request.window.limit, offset⟩ := ⟨hlimit, hoffset⟩
    exact ListRequest.ofParams_paramsAt h hvalid
  rw [targetOf?_linkTo hpath, Option.some_inj, eq_comm (a := params')]
  apply and_congr_right
  rintro rfl
  rw [haccepted, Except.ok.injEq, eq_comm]

/-- A link leads to the request at the offset of the link. -/
theorem leadsTo_linkTo (hpath : '?' ∉ path.toList)
    (h : ListRequest.ofParams resource params = .ok request) (hoffset : 0 ≤ offset) :
    LeadsTo resource (linkTo path params request.window.limit offset) (request.atOffset offset) :=
  ⟨_, (targetOf?_linkTo_eq_some_iff hpath h hoffset).2 ⟨rfl, rfl⟩⟩

private theorem next_nonneg {w : Window} (h : w.Valid)
    (hnext : w.nextOffset? total = some offset) : 0 ≤ offset := by
  obtain ⟨hlimit, hstart⟩ := Window.valid_iff.1 h
  have hexact := (Window.nextOffset?_eq_some_iff.1 hnext).1
  rw [Int64.le_iff_toInt_le, Int64.toInt_zero]
  omega

private theorem previous_nonneg {w : Window} (h : w.Valid)
    (hprevious : w.previousOffset? = some offset) : 0 ≤ offset := by
  have hexact := ((Window.previousOffset?_eq_some_iff h).1 hprevious).2
  rw [Int64.le_iff_toInt_le, Int64.toInt_zero, hexact]
  exact Int.le_max_right _ _

/-- Every link of a page is written for an offset that is not negative. -/
theorem exists_eq_linkTo_of_mem {window : Window} (h : window.Valid) (htotal : 0 ≤ total)
    {link : String} (hlink : link ∈ (Links.of path params window total).toList) :
    ∃ offset, 0 ≤ offset ∧ link = linkTo path params window.limit offset := by
  rw [Links.toList, List.mem_cons, List.mem_cons, List.mem_append, Option.mem_toList,
    Option.mem_toList, Links.of] at hlink
  rcases hlink with rfl | rfl | hnext | hprevious
  · exact ⟨0, Int64.le_refl 0, rfl⟩
  · exact ⟨_, Window.lastOffset_nonneg h htotal, rfl⟩
  · obtain ⟨offset, hoffset, rfl⟩ := Option.map_eq_some_iff.1 hnext
    exact ⟨offset, next_nonneg h hoffset, rfl⟩
  · obtain ⟨offset, hoffset, rfl⟩ := Option.map_eq_some_iff.1 hprevious
    exact ⟨offset, previous_nonneg h hoffset, rfl⟩

end Targets

/-- The links of the page of an accepted request lead to that request at the offsets of the first,
last, next and previous page. -/
theorem leadFrom_links {resource : Resource} {path : String} {params : Params}
    {request : ListRequest φ κ} {total : Int64}
    (h : ListRequest.ofParams resource params = .ok request) (hpath : '?' ∉ path.toList)
    (htotal : 0 ≤ total) :
    (Links.of path params request.window total).LeadFrom resource path request total := by
  have hwindow := ListRequest.window_valid_of_ofParams h
  have hlimit := Int64.lt_iff_toInt_lt.1 hwindow.limit_pos
  have hstart := Int64.le_iff_toInt_le.1 hwindow.offset_nonneg
  rw [Int64.toInt_zero] at hlimit hstart
  constructor
  case first => exact leadsTo_linkTo hpath h (Int64.le_refl 0)
  case last => exact leadsTo_linkTo hpath h (Window.lastOffset_nonneg hwindow htotal)
  case next_isSome =>
    have hnone : request.window.nextOffset? total = none ↔ _ :=
      Window.nextOffset?_eq_none_iff hwindow
    rw [Links.of, Option.isSome_map, Option.isSome_iff_ne_none, Ne, hnone, Int.not_le]
  case next =>
    intro link hlink
    obtain ⟨offset, hoffset, rfl⟩ := Option.map_eq_some_iff.1 hlink
    have hexact := (Window.nextOffset?_eq_some_iff.1 hoffset).1
    exact ⟨offset, hexact, leadsTo_linkTo hpath h (next_nonneg hwindow hoffset)⟩
  case previous_isSome =>
    rw [Links.of, Option.isSome_map, Window.previousOffset?, Option.isSome_ite,
      Int64.lt_iff_toInt_lt, Int64.toInt_zero]
  case previous =>
    intro link hlink
    obtain ⟨offset, hoffset, rfl⟩ := Option.map_eq_some_iff.1 hlink
    have hexact := ((Window.previousOffset?_eq_some_iff hwindow).1 hoffset).2
    exact ⟨offset, hexact, leadsTo_linkTo hpath h (previous_nonneg hwindow hoffset)⟩
  case ends_eq =>
    intro link hlink params' target htarget haccepted
    obtain ⟨offset, hoffset, rfl⟩ := exists_eq_linkTo_of_mem hwindow htotal hlink
    obtain ⟨rfl, rfl⟩ :=
      (targetOf?_linkTo_eq_some_iff hpath h hoffset).1 ⟨htarget, haccepted⟩
    exact ⟨linkTo_paramsAt _ _ _ _ _ _, linkTo_paramsAt _ _ _ _ _ _⟩
  case back =>
    intro link params' target hlink htarget haccepted total'
    obtain ⟨offset, hnext, rfl⟩ := Option.map_eq_some_iff.1 hlink
    have hexact := (Window.nextOffset?_eq_some_iff.1 hnext).1
    have hoffset := next_nonneg hwindow hnext
    obtain ⟨rfl, rfl⟩ :=
      (targetOf?_linkTo_eq_some_iff hpath h hoffset).1 ⟨htarget, haccepted⟩
    have hmoved : (request.atOffset offset).window.Valid := ⟨hwindow.limit_pos, hoffset⟩
    have hprevious : (request.atOffset offset).window.previousOffset? =
        some request.window.offset := by
      apply (Window.previousOffset?_eq_some_iff hmoved).2
      dsimp only [ListRequest.atOffset]
      omega
    refine ⟨linkTo path params request.window.limit request.window.offset, ?_,
      leadsTo_linkTo hpath h hwindow.offset_nonneg⟩
    rw [Links.of, hprevious, Option.map_some]
    exact congrArg some (linkTo_paramsAt _ _ _ _ _ _)

private def repeating : Params :=
  [("limit", "2"), ("filter[service]", "b c"), ("fields[data]", "url,id"), ("limit", "9"),
    ("filter[service]", "é+&="), ("offset", " 3 "), ("fields[data]", "id")]

private def repeatingRequest : ListRequest RunField RunSortKey :=
  ⟨[.url, .id, .id], ⟨[.anyOf .service [.text "b c", .text "é+&="]]⟩, SortOrder.initial, ⟨2, 3⟩⟩

/-- Its page has all four links, and they lead where they should. -/
theorem leadFrom_links_of_repeating :
    ListRequest.ofParams .run repeating = .ok repeatingRequest ∧
      (Links.of "/runs" repeating repeatingRequest.window 12).next.isSome ∧
      (Links.of "/runs" repeating repeatingRequest.window 12).previous.isSome ∧
      (Links.of "/runs" repeating repeatingRequest.window 12).LeadFrom .run "/runs"
        repeatingRequest 12 := by
  have hrequest : ListRequest.ofParams .run repeating = .ok repeatingRequest := by
    rw [ListRequest.ofParams_eq_ok_iff]
    exact ⟨by decide +kernel, by decide +kernel, by decide +kernel, by decide +kernel,
      by decide +kernel⟩
  exact ⟨hrequest, rfl, rfl, leadFrom_links hrequest (by decide) (by decide)⟩

end PlaybookRuns.Query
