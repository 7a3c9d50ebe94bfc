import Mathlib.Tactic.SplitIfs
import Switchboard.Dispatch.Route

/-!
# What routes keep of a path

Two requests share their limits when their templates are the same text. Since a template is itself a
path, its segments can be read back from the text, and equal texts mean equal segments. Each segment
of a template is either the segment of the request or one of three placeholders; no placeholder is an
identifier or the name of a resource, so an identifier that a template shows was in both requests.

What a template shows at a place depends on the two segments before it only through a few questions,
and all identifiers answer them alike. So identifiers may be exchanged wherever a placeholder stands
for them.

## Main definitions

* `Route.Spells`: the texts of a list of segments, with any slashes, query and fragment.
* `Route.before`: a segment some places before another.
* `Route.Agrees`: what equal routes have in common.
* `Route.Renumbers`: other identifiers in the places where they do not count.

## Main results

* `Route.spells_iff`: the segments of a path are those that it spells.
* `Route.segments_path`: the template is read back from its text.
* `Route.templates_of_paths`: which paths have equal routes.
-/
namespace Switchboard

namespace Route

/-! ## Spelling a path -/

/-- A character that no segment holds. -/
def isSeparator (c : Char) : Bool := c = '/' || c = '?' || c = '#'

/-- What can stand between slashes. -/
structure IsSegment (s : String) : Prop where
  ne_nil : s.toList ≠ []
  clear : ∀ c ∈ s.toList, isSeparator c = false

/-- The characters spell a path of these segments: before and after each of them stand any number of
slashes, one at least between two, and the path ends with the text, a query or a fragment. -/
inductive Spells : List Char → List String → Prop where
  | nil : Spells [] []
  | suffix {c : Char} (cs : List Char) (hc : c = '?' ∨ c = '#') : Spells (c :: cs) []
  | slash {cs : List Char} {ss : List String} (h : Spells cs ss) : Spells ('/' :: cs) ss
  | segment {s : String} {cs : List Char} {ss : List String} (hs : IsSegment s)
      (hcs : ∀ c ∈ cs.head?, isSeparator c = true) (h : Spells cs ss) :
      Spells (s.toList ++ cs) (s :: ss)

theorem pieces_append {xs rest : List Char} {first : List Char} {more : List (List Char)}
    (hxs : ∀ c ∈ xs, isSeparator c = false) (h : pieces rest = first :: more) :
    pieces (xs ++ rest) = (xs ++ first) :: more := by
  induction xs with
  | nil => exact h
  | cons c xs ih =>
    have hc : c ≠ '/' := by
      rintro rfl
      exact absurd (hxs '/' List.mem_cons_self) (by decide)
    rw [List.cons_append, pieces, if_neg hc, ih fun d hd => hxs d (List.mem_cons_of_mem c hd)]
    rfl

theorem segments_slash (cs : List Char) :
    segments (String.ofList ('/' :: cs)) = segments (String.ofList cs) := by
  simp [segments, pieces]

/-- Nothing, or a separator other than the slash: the path is at its end. -/
theorem takeWhile_eq_nil {c : Char} (cs : List Char) (hc : c = '?' ∨ c = '#') :
    (c :: cs).takeWhile (fun c => c ≠ '?' && c ≠ '#') = [] := by
  rcases hc with rfl | rfl <;> rfl

/-- A segment that a separator or the end of the text ends. -/
theorem segments_append {s : String} {cs : List Char} (hs : IsSegment s)
    (hcs : ∀ c ∈ cs.head?, isSeparator c = true) :
    segments (String.ofList (s.toList ++ cs)) = s :: segments (String.ofList cs) := by
  have htake : (s.toList ++ cs).takeWhile (fun c => c ≠ '?' && c ≠ '#') =
      s.toList ++ cs.takeWhile (fun c => c ≠ '?' && c ≠ '#') := by
    refine List.takeWhile_append_of_pos fun c hc => ?_
    have hclear := hs.clear c hc
    simp only [isSeparator, Bool.or_eq_false_iff, decide_eq_false_iff_not] at hclear
    simp [hclear.1.2, hclear.2]
  -- what follows the segment begins a piece of its own, so the pieces begin with an empty one
  have hrest : ∃ more, pieces (cs.takeWhile fun c => c ≠ '?' && c ≠ '#') = [] :: more := by
    cases cs with
    | nil => exact ⟨[], rfl⟩
    | cons c cs =>
      have hc := hcs c rfl
      simp only [isSeparator, Bool.or_eq_true, decide_eq_true_eq] at hc
      rcases hc with (rfl | hc) | hc
      · exact ⟨_, rfl⟩
      · exact ⟨[], by rw [takeWhile_eq_nil cs (.inl hc)]; rfl⟩
      · exact ⟨[], by rw [takeWhile_eq_nil cs (.inr hc)]; rfl⟩
  obtain ⟨more, hmore⟩ := hrest
  have hpieces := pieces_append hs.clear hmore
  have hne := hs.ne_nil
  simp only [segments, String.toList_ofList, htake, hpieces, hmore]
  simp [hne]

theorem segments_of_spells {cs : List Char} {ss : List String} (h : Spells cs ss) :
    segments (String.ofList cs) = ss := by
  induction h with
  | nil => rfl
  | suffix cs hc =>
    rw [segments, String.toList_ofList, takeWhile_eq_nil cs hc]
    rfl
  | slash _ ih => rw [segments_slash, ih]
  | segment hs hcs _ ih => rw [segments_append hs hcs, ih]

/-- Every text spells a path. -/
theorem exists_spells (cs : List Char) : ∃ ss, Spells cs ss := by
  match cs with
  | [] => exact ⟨[], .nil⟩
  | c :: rest =>
    by_cases hc : isSeparator c = true
    · simp only [isSeparator, Bool.or_eq_true, decide_eq_true_eq, or_assoc] at hc
      rcases hc with rfl | hc
      · obtain ⟨ss, hss⟩ := exists_spells rest
        exact ⟨ss, .slash hss⟩
      · exact ⟨[], .suffix rest hc⟩
    · -- the run of characters up to the next separator is a segment
      let s := String.ofList (c :: rest.takeWhile fun c => !isSeparator c)
      have hs : IsSegment s := by
        refine ⟨by simp [s], fun d hd => ?_⟩
        rw [String.toList_ofList, List.mem_cons] at hd
        rcases hd with rfl | hd
        · exact Bool.eq_false_iff.mpr hc
        · simpa using List.all_eq_true.mp List.all_takeWhile d hd
      have hnext : ∀ d ∈ (rest.dropWhile fun c => !isSeparator c).head?, isSeparator d = true := by
        intro d hd
        have hdrop := List.head?_dropWhile_not (fun c => !isSeparator c) rest
        rw [Option.mem_def.mp hd] at hdrop
        simpa using hdrop
      have hsplit : c :: rest = s.toList ++ rest.dropWhile fun c => !isSeparator c := by
        simp [s, List.takeWhile_append_dropWhile]
      obtain ⟨ss, hss⟩ := exists_spells (rest.dropWhile fun c => !isSeparator c)
      rw [hsplit]
      exact ⟨s :: ss, .segment hs hnext hss⟩
termination_by cs.length
decreasing_by
  · simp
  · exact Nat.lt_succ_of_le (List.dropWhile_sublist _).length_le

/-- **The segments of a path** are those that it spells. -/
theorem spells_iff {cs : List Char} {ss : List String} :
    Spells cs ss ↔ segments (String.ofList cs) = ss := by
  refine ⟨segments_of_spells, ?_⟩
  rintro rfl
  obtain ⟨ss, hss⟩ := exists_spells cs
  rwa [segments_of_spells hss]

theorem Spells.isSegment {cs : List Char} {ss : List String} (h : Spells cs ss) :
    ∀ s ∈ ss, IsSegment s := by
  induction h with
  | nil | suffix => simp
  | slash _ ih => exact ih
  | segment hs _ _ ih => exact List.forall_mem_cons.mpr ⟨hs, ih⟩

theorem isSegment_of_mem_segments {path s : String} (h : s ∈ segments path) : IsSegment s := by
  have hspells : Spells path.toList (segments path) := by rw [spells_iff, String.ofList_toList]
  exact hspells.isSegment s h

/-! ## The text of a template -/

/-- What stands in a template for something that varies. -/
def placeholders : List String := [":token", ":emoji", ":id"]

/-- A slot holds the segment itself or a placeholder. -/
theorem slot_eq_or (b p : Option String) (s : String) :
    slot b p s = s ∨ slot b p s ∈ placeholders := by
  unfold slot
  split_ifs <;> simp [placeholders]

theorem isSegment_of_mem_placeholders {s : String} (h : s ∈ placeholders) : IsSegment s := by
  simp only [placeholders, List.mem_cons, List.not_mem_nil, or_false] at h
  rcases h with rfl | rfl | rfl <;> exact ⟨by simp, by simp [isSeparator]⟩

theorem isSegment_of_mem_templateAfter {b p : Option String} {ss : List String}
    (h : ∀ s ∈ ss, IsSegment s) : ∀ t ∈ templateAfter b p ss, IsSegment t := by
  induction ss generalizing b p with
  | nil => simp [templateAfter]
  | cons s rest ih =>
    obtain ⟨hs, hrest⟩ := List.forall_mem_cons.mp h
    refine List.forall_mem_cons.mpr ⟨?_, ih hrest⟩
    rcases slot_eq_or b p s with heq | hmem
    · rwa [heq]
    · exact isSegment_of_mem_placeholders hmem

/-- Segments with a slash before each of them. -/
theorem spells_join {ss : List String} (h : ∀ s ∈ ss, IsSegment s) :
    Spells (String.join (ss.map ("/" ++ ·))).toList ss := by
  induction ss with
  | nil => exact .nil
  | cons s rest ih =>
    obtain ⟨hs, hrest⟩ := List.forall_mem_cons.mp h
    have htext : (String.join ((s :: rest).map ("/" ++ ·))).toList =
        '/' :: (s.toList ++ (String.join (rest.map ("/" ++ ·))).toList) := by
      simp [String.join_cons]
    rw [htext]
    refine .slash (.segment hs ?_ (ih hrest))
    -- the next segment begins with its slash
    cases rest with
    | nil => simp
    | cons t more => simp [String.join_cons, isSeparator]

/-- **A template is read back** from its text. -/
theorem segments_path (method p : String) :
    segments (ofPath method p).path = (ofPath method p).template := by
  have hsegments : ∀ t ∈ (ofPath method p).template, IsSegment t :=
    isSegment_of_mem_templateAfter fun s hs => isSegment_of_mem_segments hs
  rw [path]
  split_ifs with hempty
  · have hroot : Spells "/".toList [] := by
      rw [show "/".toList = ['/'] by simp]
      exact .slash .nil
    rw [spells_iff, String.ofList_toList] at hroot
    rw [hroot, List.isEmpty_iff.mp hempty]
  · have hjoin := spells_join hsegments
    rwa [spells_iff, String.ofList_toList] at hjoin

/-- Routes are equal when their methods and their texts are. -/
theorem ofPath_eq_iff {m n p q : String} :
    ofPath m p = ofPath n q ↔ m = n ∧ (ofPath m p).path = (ofPath n q).path := by
  refine ⟨fun h => ⟨congrArg method h, congrArg path h⟩, ?_⟩
  rintro ⟨rfl, htext⟩
  have htemplate : (ofPath m p).template = (ofPath m q).template := by
    rw [← segments_path m p, htext, segments_path m q]
  exact congrArg (Route.mk m) htemplate

/-! ## What a slot depends on -/

/-- The segment that stands `k` places before the index. -/
def before (ss : List String) (k i : Nat) : Option String := if k ≤ i then ss[i - k]? else none

theorem before_append_length (front rest : List String) (s : String) :
    before (front ++ s :: rest) 1 (front.length + 1) = some s := by
  simp [before]

/-- The second segment before a place is the first before the one before it. -/
theorem before_succ (ss : List String) (k i : Nat) : before ss (k + 1) (i + 1) = before ss k i := by
  simp [before]

theorem getElem?_templateAfter (front ss : List String) (i : Nat) :
    (templateAfter (before (front ++ ss) 2 front.length) (before (front ++ ss) 1 front.length)
      ss)[i]? = ss[i]?.map (slot (before (front ++ ss) 2 (front.length + i))
        (before (front ++ ss) 1 (front.length + i))) := by
  induction ss generalizing front i with
  | nil => simp [templateAfter]
  | cons s rest ih =>
    cases i with
    | zero => simp [templateAfter]
    | succ i =>
      have hnext := ih (front ++ [s]) i
      simp only [List.append_assoc, List.cons_append, List.nil_append, List.length_append,
        List.length_cons, List.length_nil, Nat.zero_add] at hnext
      rw [before_append_length, before_succ, Nat.add_assoc, Nat.add_comm 1 i] at hnext
      simpa [templateAfter] using hnext

/-- A place of a template, by the segment there and the two before it. -/
theorem getElem?_template (method p : String) (i : Nat) : (ofPath method p).template[i]? =
    (segments p)[i]?.map (slot (before (segments p) 2 i) (before (segments p) 1 i)) := by
  simpa [before, ofPath] using getElem?_templateAfter [] (segments p) i

/-- The names of the resources whose identifiers have limits of their own. -/
def majorNames : List String := ["channels", "guilds", "webhooks"]

theorem isMajor_iff {s : String} : isMajor s = true ↔ s ∈ majorNames := by
  simp [isMajor, majorNames, or_assoc]

/-- The identifier of a resource with limits of its own. -/
theorem slot_of_major {b : Option String} {word s : String} (hword : word ∈ majorNames)
    (hs : isIdentifier s = true) : slot b (some word) s = s := by
  simp [slot, isMajor_iff.mpr hword, hs]

/-- The token of a webhook. -/
theorem slot_of_webhook {id : String} (s : String) (hid : isIdentifier id = true) :
    slot (some "webhooks") (some id) s = s := by
  simp [slot, hid]

theorem isIdentifier_of_mem_placeholders {s : String} (h : s ∈ placeholders) :
    isIdentifier s = false := by
  simp only [placeholders, List.mem_cons, List.not_mem_nil, or_false] at h
  rcases h with rfl | rfl | rfl <;> decide

/-- An identifier that a slot holds is the segment. -/
theorem eq_of_slot_eq_identifier {b p : Option String} {s id : String}
    (hid : isIdentifier id = true) (h : slot b p s = id) : s = id := by
  rcases slot_eq_or b p s with heq | hmem
  · exact heq.symm.trans h
  · rw [h] at hmem
    exact absurd hid (by rw [isIdentifier_of_mem_placeholders hmem]; decide)

/-- So is the name of a resource. -/
theorem eq_of_slot_eq_webhooks {b p : Option String} {s : String}
    (h : slot b p s = "webhooks") : s = "webhooks" := by
  rcases slot_eq_or b p s with heq | hmem
  · exact heq.symm.trans h
  · rw [h] at hmem
    exact absurd hmem (by decide)

/-! ## What equal routes have in common -/

/-- What the segments of two paths with this template have in common. -/
structure Agrees (template ps qs : List String) : Prop where
  length : ps.length = qs.length
  /-- Identifiers of the major resources. -/
  major : ∀ i word s, before ps 1 i = some word → word ∈ majorNames → ps[i]? = some s →
    isIdentifier s = true → qs[i]? = some s
  /-- Tokens of webhooks, where the template shows that there is a webhook. -/
  token : ∀ i id, template[i]? = some "webhooks" → template[i + 1]? = some id →
    isIdentifier id = true → ps[i + 2]? = qs[i + 2]?

/-- A place where a template shows the identifier shows the segment of each path. -/
theorem getElem?_of_template {m p : String} {i : Nat} {id : String}
    (h : (ofPath m p).template[i]? = some id) (hid : isIdentifier id = true) :
    (segments p)[i]? = some id := by
  rw [getElem?_template, Option.map_eq_some_iff] at h
  obtain ⟨s, hs, hslot⟩ := h
  rwa [eq_of_slot_eq_identifier hid hslot] at hs

theorem template_of_major {m p : String} {i : Nat} {word s : String}
    (hbefore : before (segments p) 1 i = some word) (hword : word ∈ majorNames)
    (hs : (segments p)[i]? = some s) (hid : isIdentifier s = true) :
    (ofPath m p).template[i]? = some s := by
  rw [getElem?_template, hs, hbefore, Option.map_some, slot_of_major hword hid]

/-- After a webhook and its identifier, a template shows the segment. -/
theorem template_of_webhook {m p : String} {i : Nat} {id : String}
    (hword : (ofPath m p).template[i]? = some "webhooks")
    (hid : (ofPath m p).template[i + 1]? = some id) (h : isIdentifier id = true) :
    (ofPath m p).template[i + 2]? = (segments p)[i + 2]? := by
  rw [getElem?_template, Option.map_eq_some_iff] at hword
  obtain ⟨s, hs, hslot⟩ := hword
  rw [eq_of_slot_eq_webhooks hslot] at hs
  have hnext := getElem?_of_template hid h
  have htwo : before (segments p) 2 (i + 2) = some "webhooks" := by simpa [before] using hs
  have hone : before (segments p) 1 (i + 2) = some id := by simpa [before] using hnext
  have hslot : slot (some "webhooks") (some id) = fun s => s := funext fun s => slot_of_webhook s h
  rw [getElem?_template, htwo, hone, hslot, Option.map_id']

theorem agrees_of_template_eq {m n p q : String}
    (h : (ofPath m p).template = (ofPath n q).template) :
    Agrees (ofPath m p).template (segments p) (segments q) where
  length := by
    have hlength := congrArg List.length h
    simpa [ofPath] using hlength
  major := by
    intro i word s hbefore hword hs hid
    have htemplate : (ofPath m p).template[i]? = some s := template_of_major hbefore hword hs hid
    rw [h] at htemplate
    exact getElem?_of_template htemplate hid
  token := by
    intro i id hword hid hidentifier
    rw [← template_of_webhook hword hid hidentifier]
    rw [h] at hword hid ⊢
    exact template_of_webhook hword hid hidentifier

/-! ## Other identifiers -/

/-- The place after the name of a major resource. -/
def AfterMajor (ss : List String) (i : Nat) : Prop := ∃ word ∈ majorNames, before ss 1 i = some word

/-- The place after a webhook and its identifier. -/
def AfterWebhook (ss : List String) (i : Nat) : Prop :=
  before ss 2 i = some "webhooks" ∧ ∃ id, before ss 1 i = some id ∧ isIdentifier id = true

/-- The segments `qs` are `ps`, with other identifiers for some that neither stand for a major
resource nor are the token of a webhook. -/
structure Renumbers (ps qs : List String) : Prop where
  length : qs.length = ps.length
  same : ∀ i s t, ps[i]? = some s → qs[i]? = some t →
    t = s ∨ isIdentifier s = true ∧ isIdentifier t = true ∧ ¬ AfterMajor ps i ∧ ¬ AfterWebhook ps i

/-- The same segment, or two identifiers: no slot that follows can tell them apart. -/
def Akin (o o' : Option String) : Prop :=
  o = o' ∨ ∃ s t, o = some s ∧ o' = some t ∧ isIdentifier s = true ∧ isIdentifier t = true

/-- A question that all identifiers answer alike. -/
theorem Akin.any_eq {o o' : Option String} {f : String → Bool} (h : Akin o o')
    (hf : ∀ s t, isIdentifier s = true → isIdentifier t = true → f s = f t) :
    o.any f = o'.any f := by
  rcases h with rfl | ⟨s, t, rfl, rfl, hs, ht⟩
  · rfl
  · exact hf s t hs ht

theorem beq_eq_false_of_isIdentifier {s w : String} (hs : isIdentifier s = true)
    (hw : isIdentifier w = false) : (s == w) = false := by
  refine beq_eq_false_iff_ne.mpr ?_
  rintro rfl
  exact absurd hs (by simp [hw])

/-- No identifier is a certain word. -/
theorem Akin.beq_eq {o o' : Option String} (h : Akin o o') {w : String}
    (hw : isIdentifier w = false) : (o == some w) = (o' == some w) := by
  have hany : ∀ o : Option String, (o == some w) = o.any (· == w) := fun o => by cases o <;> rfl
  rw [hany, hany]
  refine h.any_eq fun s t hs ht => ?_
  rw [beq_eq_false_of_isIdentifier hs hw, beq_eq_false_of_isIdentifier ht hw]

theorem isMajor_of_isIdentifier {s : String} (hs : isIdentifier s = true) : isMajor s = false := by
  simp [isMajor, beq_eq_false_of_isIdentifier hs (by decide : isIdentifier "channels" = false),
    beq_eq_false_of_isIdentifier hs (by decide : isIdentifier "guilds" = false),
    beq_eq_false_of_isIdentifier hs (by decide : isIdentifier "webhooks" = false)]

/-- A slot reads of the segments before it only what kindred segments have in common. -/
theorem slot_congr {b b' p p' : Option String} (hb : Akin b b') (hp : Akin p p') (s : String) :
    slot b p s = slot b' p' s := by
  have hmajor : p.any isMajor = p'.any isMajor := hp.any_eq fun s t hs ht => by
    rw [isMajor_of_isIdentifier hs, isMajor_of_isIdentifier ht]
  have hidentifier : p.any isIdentifier = p'.any isIdentifier := hp.any_eq fun s t hs ht => by
    rw [hs, ht]
  unfold slot
  rw [hmajor, hidentifier, hb.beq_eq (by decide : isIdentifier "webhooks" = false),
    hb.beq_eq (by decide : isIdentifier "interactions" = false),
    hp.beq_eq (by decide : isIdentifier "reactions" = false)]

/-- Where neither a major resource nor a webhook is named, identifiers have the same slot. -/
theorem slot_identifier {b p : Option String} {s t : String} (hs : isIdentifier s = true)
    (ht : isIdentifier t = true) (hmajor : ¬ ∃ word ∈ majorNames, p = some word)
    (hwebhook : ¬ (b = some "webhooks" ∧ ∃ id, p = some id ∧ isIdentifier id = true)) :
    slot b p s = slot b p t := by
  have hany : p.any isMajor = false := by
    cases p with
    | none => rfl
    | some word => exact Bool.eq_false_iff.mpr fun h => hmajor ⟨word, isMajor_iff.mp h, rfl⟩
  have htoken : (b == some "webhooks" && p.any isIdentifier) = false := by
    refine Bool.eq_false_iff.mpr fun h => hwebhook ?_
    rw [Bool.and_eq_true, beq_iff_eq, Option.any_eq_true] at h
    exact h
  simp [slot, hany, htoken, hs, ht]

theorem Renumbers.akin {ps qs : List String} (h : Renumbers ps qs) (i : Nat) :
    Akin qs[i]? ps[i]? := by
  by_cases hi : i < ps.length
  · have hs := List.getElem?_eq_getElem hi
    have ht := List.getElem?_eq_getElem (h.length ▸ hi : i < qs.length)
    rcases h.same i _ _ hs ht with heq | ⟨hids, hidt, -⟩
    · exact .inl (by rw [hs, ht, heq])
    · exact .inr ⟨_, _, ht, hs, hidt, hids⟩
  · have hj : ¬ i < qs.length := h.length ▸ hi
    exact .inl (by simp [Nat.le_of_not_lt hi, Nat.le_of_not_lt hj])

theorem Renumbers.akin_before {ps qs : List String} (h : Renumbers ps qs) (k i : Nat) :
    Akin (before qs k i) (before ps k i) := by
  unfold before
  split_ifs
  · exact h.akin (i - k)
  · exact .inl rfl

/-- **Other identifiers** in places that do not count leave the template. -/
theorem template_of_renumbers {m p q : String} (h : Renumbers (segments p) (segments q)) :
    (ofPath m q).template = (ofPath m p).template := by
  refine List.ext_getElem? fun i => ?_
  rw [getElem?_template, getElem?_template]
  by_cases hi : i < (segments p).length
  · have hs := List.getElem?_eq_getElem hi
    have ht := List.getElem?_eq_getElem (h.length ▸ hi : i < (segments q).length)
    rw [hs, ht, Option.map_some, Option.map_some,
      slot_congr (h.akin_before 2 i) (h.akin_before 1 i)]
    rcases h.same i _ _ hs ht with heq | ⟨hids, hidt, hmajor, hwebhook⟩
    · rw [heq]
    · rw [slot_identifier hidt hids hmajor hwebhook]
  · have hj : ¬ i < (segments q).length := h.length ▸ hi
    simp [Nat.le_of_not_lt hi, Nat.le_of_not_lt hj]

/-- **Which paths have equal routes.** Equal methods and equal texts of templates mean as many
segments in both paths, with the same identifiers of major resources and the same tokens of webhooks.
On the other hand a path may be spelled with other identifiers in all other places, with any slashes
and any query or fragment, and has the same route. -/
theorem templates_of_paths (m n p q : String) :
    ((ofPath m p).method = (ofPath n q).method → (ofPath m p).path = (ofPath n q).path →
      m = n ∧ Agrees (ofPath m p).template (segments p) (segments q)) ∧
    (∀ ss, Renumbers (segments p) ss → Spells q.toList ss → ofPath m q = ofPath m p) := by
  refine ⟨fun hmethod htext => ⟨hmethod, ?_⟩, fun ss hss hspells => ?_⟩
  · have hroute : ofPath m p = ofPath n q := ofPath_eq_iff.mpr ⟨hmethod, htext⟩
    exact agrees_of_template_eq (congrArg Route.template hroute)
  · have hsegments : segments q = ss := by
      rw [← segments_of_spells hspells, String.ofList_toList]
    exact congrArg (Route.mk m) (template_of_renumbers (m := m) (hsegments ▸ hss))

/-- A webhook with its token stays; the identifier of the message, the slashes and the query do not
matter. -/
theorem templates_of_paths_webhook :
    Renumbers (segments "/webhooks/5/7/messages/12?wait=1") ["webhooks", "5", "7", "messages", "345"] ∧
      Spells "webhooks/5//7/messages/345/#top".toList ["webhooks", "5", "7", "messages", "345"] ∧
      ofPath "PATCH" "webhooks/5//7/messages/345/#top" =
        ofPath "PATCH" "/webhooks/5/7/messages/12?wait=1" ∧
      Agrees ["webhooks", "5", "7", "messages", ":id"]
        (segments "/webhooks/5/7/messages/12?wait=1")
        (segments "webhooks/5//7/messages/345/#top") := by
  have hp : segments "/webhooks/5/7/messages/12?wait=1" =
      ["webhooks", "5", "7", "messages", "12"] := by decide +kernel
  have hq : segments "webhooks/5//7/messages/345/#top" =
      ["webhooks", "5", "7", "messages", "345"] := by decide +kernel
  have hrenumbers : Renumbers (segments "/webhooks/5/7/messages/12?wait=1")
      ["webhooks", "5", "7", "messages", "345"] := by
    rw [hp]
    refine ⟨rfl, fun i s t hs ht => ?_⟩
    rcases i with _ | _ | _ | _ | _ | i
    case succ.succ.succ.succ.zero =>
      cases hs
      cases ht
      refine .inr ⟨by decide, by decide, ?_, ?_⟩
      · rintro ⟨word, hword, hbefore⟩
        cases hbefore
        exact absurd hword (by decide)
      · rintro ⟨hbefore, -⟩
        exact absurd hbefore (by decide)
    all_goals simp_all
  have hspells : Spells "webhooks/5//7/messages/345/#top".toList
      ["webhooks", "5", "7", "messages", "345"] := by
    rw [spells_iff, String.ofList_toList]
    exact hq
  have hroute := (templates_of_paths "PATCH" "PATCH" "/webhooks/5/7/messages/12?wait=1"
    "webhooks/5//7/messages/345/#top").2 _ hrenumbers hspells
  have hagrees := ((templates_of_paths "PATCH" "PATCH" "/webhooks/5/7/messages/12?wait=1"
    "webhooks/5//7/messages/345/#top").1 rfl (congrArg path hroute.symm)).2
  have htemplate : (ofPath "PATCH" "/webhooks/5/7/messages/12?wait=1").template =
      ["webhooks", "5", "7", "messages", ":id"] := by decide +kernel
  rw [htemplate] at hagrees
  exact ⟨hrenumbers, hspells, hroute, hagrees⟩

end Route

end Switchboard
