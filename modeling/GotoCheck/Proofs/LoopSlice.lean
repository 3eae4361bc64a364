import GotoCheck.Proofs.Extract

/-! Loops as slices. The program of a loop is the stretch of the body from the head to the back
edge, instruction by instruction, with an end marker for the jumps that leave it. -/
namespace GotoCheck.Loop

section Span
variable (s : Span) (body : Program) (tag : Nat)

def Span.length : Nat := s.last - s.first + 1

def Span.code : List Instruction := body.between s.first (s.last + 1)

/-- The place in the stretch, counted from its head, of the instruction under a handle. -/
def Span.place? (t : Handle) : Option Nat :=
  (body.position? t).bind fun k =>
    if s.first ≤ k ∧ k ≤ s.last then some (k - s.first) else none

/-- Some jump leads out of the stretch. -/
def Span.leaves : Bool :=
  (s.code body).any fun i => i.targets.any fun t => (s.place? body t).isNone

/-- What a handle of the body becomes in the loop: the copy, or the marker behind the copies. -/
def Span.image (t : Handle) : Handle :=
  ((s.place? body t).map (Handle.mk tag)).getD ⟨tag, s.length⟩

/-- The instructions of the loop before they are numbered. -/
def Span.listing : List Instruction :=
  ((s.code body).map fun i => { i with targets := i.targets.map (s.image body tag) }) ++
    if s.leaves body then [.endFunction] else []

/-- The jumps that leave the stretch, in program order and then in the order of the targets. -/
def Span.exits : List (Handle × Handle) :=
  (s.code body).zipIdx.flatMap fun r =>
    (r.1.targets.filter fun t => (s.place? body t).isNone).map fun t => (⟨tag, r.2⟩, t)

end Span

/-- The loop `l` is the stretch `s` of the body under handles of its own: the copies with their
jumps led over, and behind them the end marker if some jump needs it. -/
structure SliceOf (body : Program) (s : Span) (l : Loop) : Prop where
  ids : l.program.ids = (List.range l.program.size).map (Handle.mk l.program.tag)
  wellFormed : l.program.WellFormed
  size : l.program.size = s.length + if s.leaves body then 1 else 0
  copies : ∀ (k : Nat) (i : Instruction), (s.code body)[k]? = some i → ∃ n,
    l.program.instructions[k]? = some { i with
      targets := i.targets.map (s.image body l.program.tag)
      targetNumber := n
      locationNumber := k }
  marker : s.leaves body → ∃ n, l.program.instructions[s.length]? =
    some { Instruction.endFunction with targetNumber := n, locationNumber := s.length }
  exits : l.exits = s.exits body l.program.tag
  closed : l.program.Closed

variable {body : Program} {s : Span} {tag k : Nat} {t : Handle} {i : Instruction} {l : Loop}

section Stretch

theorem stretch_eq (hle : s.first ≤ s.last) :
    stretch body s = (body.rows.drop s.first).take s.length := by
  have hlast : body.rows[s.last]? = (body.rows.drop s.first)[s.last - s.first]? := by
    rw [List.getElem?_drop, Nat.add_sub_cancel' hle]
  rw [stretch, inner, hlast, Span.length, List.take_add_one]

theorem map_snd_stretch (hle : s.first ≤ s.last) :
    (stretch body s).map Prod.snd = s.code body := by
  rw [stretch_eq hle, List.map_take, List.map_drop, Span.code, Program.between, Span.length,
    Nat.succ_sub hle]
  rfl

theorem length_stretch (hle : s.first ≤ s.last) (hlt : s.last < body.size) :
    (stretch body s).length = s.length := by
  have hsize : body.rows.length = body.size := rfl
  rw [stretch_eq hle, List.length_take, List.length_drop, Span.length]
  omega

theorem getElem?_stretch (hle : s.first ≤ s.last) (hk : k < s.length) :
    (stretch body s)[k]? = body.rows[s.first + k]? := by
  rw [stretch_eq hle, List.getElem?_take_of_lt hk, List.getElem?_drop]

theorem getElem?_code (hle : s.first ≤ s.last) (hk : k < s.length) :
    (s.code body)[k]? = body.instructions[s.first + k]? := by
  rw [← map_snd_stretch hle, List.getElem?_map, getElem?_stretch hle hk,
    Program.getElem?_instructions]

theorem place?_eq_some_iff (hbody : body.WellFormed) (hle : s.first ≤ s.last) :
    s.place? body t = some k ↔ k < s.length ∧ body.ids[s.first + k]? = some t := by
  unfold Span.place? Span.length
  rw [Option.bind_eq_some_iff]
  simp only [hbody.position?_eq_some_iff]
  constructor
  · intro hx
    obtain ⟨j, hj, hk⟩ := hx
    split at hk
    · cases hk
      exact ⟨by omega, by rwa [Nat.add_sub_cancel' (by omega)]⟩
    · cases hk
  · intro hx
    obtain ⟨hk, hid⟩ := hx
    exact ⟨s.first + k, hid, by rw [if_pos (by omega), Nat.add_sub_cancel_left]⟩

/-- Looking for a handle among the copied rows finds its place in the body. -/
theorem placeIn_stretch (hbody : body.WellFormed) (hle : s.first ≤ s.last)
    (hlt : s.last < body.size) : placeIn body (stretch body s) = s.place? body := by
  -- the copied rows make a program of their own, in which a handle has one place at most
  let part : Program := { body with rows := stretch body s }
  have hpart : part.WellFormed := by
    refine hbody.of_sublist ?_ rfl
    apply List.Sublist.map Prod.fst
    change (stretch body s).Sublist body.rows
    rw [stretch_eq hle]
    exact (List.take_sublist _ _).trans (List.drop_sublist _ _)
  funext t
  have hplace : placeIn body (stretch body s) t = part.position? t :=
    (Program.position?_eq_findIdx? (p := part)).symm
  apply Option.ext
  intro k
  rw [hplace, hpart.position?_eq_some_iff, place?_eq_some_iff hbody hle, Program.getElem?_ids,
    Program.getElem?_ids]
  change (stretch body s)[k]?.map _ = _ ↔ _
  rcases Nat.lt_or_ge k s.length with hk | hk
  · rw [getElem?_stretch hle hk]
    exact ⟨fun h => ⟨hk, h⟩, And.right⟩
  · rw [List.getElem?_eq_none (((length_stretch hle hlt).symm ▸ hk))]
    constructor
    · intro h
      cases h
    · intro hx
      obtain ⟨hk', -⟩ := hx
      omega

theorem exits_eq_nil_iff : s.exits body tag = [] ↔ s.leaves body = false := by
  simp only [Span.exits, Span.leaves, List.flatMap_eq_nil_iff, List.any_eq_false, Prod.forall,
    List.mk_mem_zipIdx_iff_getElem?, List.map_eq_nil_iff, List.filter_eq_nil_iff]
  constructor
  · intro h i hi hany
    obtain ⟨k, hk⟩ := List.getElem?_of_mem hi
    obtain ⟨t, ht, hout⟩ := List.any_eq_true.mp hany
    exact h i k hk t ht hout
  · intro h i k hk t ht hout
    exact h i (List.mem_of_getElem? hk) (List.any_eq_true.mpr ⟨t, ht, hout⟩)

theorem copyStretch_stretch (hbody : body.WellFormed) (hle : s.first ≤ s.last)
    (hlt : s.last < body.size) : copyStretch tag body (stretch body s) =
      (.ofList tag (s.listing body tag), s.exits body tag) := by
  have himage : imageOf tag body (stretch body s) = s.image body tag := by
    funext t
    rw [imageOf, placeIn_stretch hbody hle hlt, length_stretch hle hlt]
    rfl
  have hexits : exitsOf tag body (stretch body s) = s.exits body tag := by
    rw [exitsOf, exitEdges, placeIn_stretch hbody hle hlt, map_snd_stretch hle]
    rfl
  have hcopied : copied tag body (stretch body s) = (s.code body).map fun i =>
      { i with targets := i.targets.map (s.image body tag) } := by
    rw [copied, himage, ← map_snd_stretch hle, List.map_map]
    rfl
  rw [copyStretch_eq, hexits, hcopied, Span.listing]
  cases hleaves : s.leaves body with
  | true =>
    have hne : s.exits body tag ≠ [] := by
      rw [Ne, exits_eq_nil_iff, hleaves]
      simp
    rw [List.isEmpty_eq_false_iff.mpr hne]
    rfl
  | false =>
    rw [exits_eq_nil_iff.mpr hleaves]
    rfl

end Stretch

section Listing

theorem length_code (hle : s.first ≤ s.last) (hlt : s.last < body.size) :
    (s.code body).length = s.length := by
  rw [← map_snd_stretch hle, List.length_map, length_stretch hle hlt]

theorem length_listing (hle : s.first ≤ s.last) (hlt : s.last < body.size) :
    (s.listing body tag).length = s.length + if s.leaves body then 1 else 0 := by
  rw [Span.listing, List.length_append, List.length_map, length_code hle hlt]
  split <;> rfl

theorem getElem?_listing_of_code (hi : (s.code body)[k]? = some i) : (s.listing body tag)[k]? =
    some { i with targets := i.targets.map (s.image body tag) } := by
  have hk := (List.getElem?_eq_some_iff.mp hi).1
  rw [Span.listing, List.getElem?_append_left (by rwa [List.length_map]), List.getElem?_map, hi]
  rfl

theorem getElem?_listing_marker (hle : s.first ≤ s.last) (hlt : s.last < body.size)
    (hleaves : s.leaves body) : (s.listing body tag)[s.length]? = some .endFunction := by
  have hlen := length_code hle hlt
  have hcopies : ((s.code body).map fun i =>
      { i with targets := i.targets.map (s.image body tag) }).length = s.length := by
    rw [List.length_map, hlen]
  rw [Span.listing, List.getElem?_append_right (Nat.le_of_eq hcopies), hcopies, Nat.sub_self,
    if_pos hleaves]
  rfl

end Listing

/-- Cutting a stretch out of a well-formed body makes a slice. -/
theorem sliceOf_of_extract {table : FunctionTable} {function : String} {head backEdge : Handle}
    (hbody : body.WellFormed) (hle : s.first ≤ s.last) (hlt : s.last < body.size)
    (hl : extract table function body head backEdge s tag = .ok l) : SliceOf body s l := by
  obtain ⟨walk, -, rfl⟩ := extract_eq_ok_iff.mp hl
  have hclosed := closed_copyStretch tag body (stretch body s)
  unfold ofStretch
  rw [copyStretch_stretch hbody hle hlt] at hclosed ⊢
  have hsize : ((Program.ofList tag (s.listing body tag)).numberTargets.numberLocations 0).size =
      (s.listing body tag).length := by
    rw [← Program.length_ids]
    simp
  exact {
    ids := by
      dsimp only
      rw [hsize, Program.ids_numberLocations, Program.ids_numberTargets, Program.ids_ofList]
      rfl
    wellFormed := Program.wellFormed_ofList.numberTargets.numberLocations
    size := hsize.trans (length_listing hle hlt)
    copies := fun k i hi => Program.getElem?_numbered_ofList (getElem?_listing_of_code hi)
    marker := fun hleaves =>
      Program.getElem?_numbered_ofList (getElem?_listing_marker hle hlt hleaves)
    exits := rfl
    closed := by
      unfold Program.Closed at hclosed ⊢
      simpa using hclosed }

theorem SliceOf.getElem?_ids (h : SliceOf body s l) (hk : k < l.program.size) :
    l.program.ids[k]? = some ⟨l.program.tag, k⟩ := by
  rw [h.ids, List.getElem?_map, List.getElem?_range hk]
  rfl

theorem SliceOf.length_le (h : SliceOf body s l) : s.length ≤ l.program.size := by
  rw [h.size]
  exact Nat.le_add_right _ _

theorem image_of_getElem? (hbody : body.WellFormed) (hle : s.first ≤ s.last) (hk : k < s.length)
    (hid : body.ids[s.first + k]? = some t) : s.image body tag t = ⟨tag, k⟩ := by
  rw [Span.image, (place?_eq_some_iff hbody hle).mpr ⟨hk, hid⟩]
  rfl

end GotoCheck.Loop
