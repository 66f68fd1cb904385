import Pacing.Proofs.Settings
import Pacing.Proofs.Json.Recognition
import Pacing.Proofs.Run.Shutdown

/-!
# Items on the command line

A list of items is given as one text. It is split at every comma, and a piece is an item: the document
it is a text of, and itself as a string if it is a text of no document. So the list has an item for
every piece, and the compact texts of documents without commas in them, joined by commas, give the
documents back. A run of such a list writes a line for every item, in order.

* `Denotes` says which item a piece is.
* `WritesItems` says what a run of a finite source comes to.
* `item_list_kept` is the main statement, `item_list_changes` shows why it speaks of documents that
  their texts keep and of a depth.
-/

namespace Pacing.Cli

open Pacing.Run

/-! ### Pieces -/

section Pieces

variable {separator : Char}

theorem splitPieces_eq_splitOn (text : List Char) :
    splitPieces separator text = text.splitOn separator := by
  induction text with
  | nil => rfl
  | cons c text ih =>
    rw [splitPieces, List.splitOn_cons_eq_if_modifyHead, ih]
    by_cases hc : c = separator
    · simp [hc]
    · obtain ⟨piece, pieces, hpieces⟩ :=
        List.exists_cons_of_ne_nil (List.splitOn_ne_nil separator text)
      simp [hc, hpieces]

/-- No piece has a separator in it. -/
theorem separator_notMem_piece {text piece : List Char} (h : piece ∈ splitPieces separator text) :
    separator ∉ piece := by
  induction text generalizing piece with
  | nil =>
    obtain rfl := List.mem_singleton.mp h
    exact List.not_mem_nil
  | cons c text ih =>
    unfold splitPieces at h
    split at h
    case isTrue =>
      rcases List.mem_cons.mp h with rfl | h
      · exact List.not_mem_nil
      · exact ih h
    case isFalse hc =>
      have hcons : ∀ {piece : List Char}, separator ∉ piece → separator ∉ c :: piece := fun h =>
        List.not_mem_cons_of_ne_of_not_mem (Ne.symm hc) h
      split at h
      case h_1 hnil => exact absurd hnil (splitPieces_ne_nil separator text)
      case h_2 first pieces hpieces =>
        rw [hpieces] at ih
        rcases List.mem_cons.mp h with rfl | h
        · exact hcons (ih (List.mem_cons_self ..))
        · exact ih (List.mem_cons_of_mem _ h)

theorem splitItems_length (raw : String) : (splitItems raw).length = raw.toList.count ',' + 1 := by
  rw [splitItems, List.length_map, splitPieces_length]

theorem comma_notMem_item {raw piece : String} (h : piece ∈ splitItems raw) :
    ',' ∉ piece.toList := by
  obtain ⟨chars, hchars, rfl⟩ := List.mem_map.mp h
  rw [String.toList_ofList]
  exact separator_notMem_piece hchars

theorem map_toList_splitItems (raw : String) :
    (splitItems raw).map String.toList = raw.toList.splitOn ',' := by
  simp [splitItems, splitPieces_eq_splitOn, Function.comp_def]

/-- Nothing of the text is lost. -/
theorem intercalate_splitItems (raw : String) : ",".intercalate (splitItems raw) = raw := by
  rw [← String.toList_inj, String.toList_intercalate, map_toList_splitItems]
  exact List.intercalate_splitOn ','

/-- Pieces without commas are found again. -/
theorem splitItems_intercalate {pieces : List String} (hpieces : pieces ≠ [])
    (hcomma : ∀ piece ∈ pieces, ',' ∉ piece.toList) :
    splitItems (",".intercalate pieces) = pieces := by
  have hfound : (",".intercalate pieces).toList.splitOn ',' = pieces.map String.toList := by
    rw [String.toList_intercalate]
    exact List.splitOn_intercalate ',' (List.forall_mem_map.mpr hcomma) (by simpa using hpieces)
  rw [splitItems, splitPieces_eq_splitOn, hfound, List.map_map]
  simp [Function.comp_def]

theorem splitItems_of_notMem {piece : String} (h : ',' ∉ piece.toList) :
    splitItems piece = [piece] := by
  have hsole := splitItems_intercalate (List.cons_ne_nil piece []) (List.forall_mem_singleton.mpr h)
  rwa [String.intercalate_singleton] at hsole

end Pieces

/-! ### Items -/

/-- The item a piece is: the document it is a text of, or itself if there is none. -/
inductive Denotes (piece : String) : Json → Prop
  | document {v : Json} : Json.Written Json.depthLimit v piece.toList → Denotes piece v
  | string : (∀ v, ¬ Json.Written Json.depthLimit v piece.toList) → Denotes piece (.string piece)

theorem parseItem_eq_iff {piece : String} {v : Json} : parseItem piece = v ↔ Denotes piece v := by
  unfold parseItem
  split
  case h_1 w hw =>
    have hwritten := Json.parseWithin_eq_ok.mp hw
    constructor
    · rintro rfl
      exact .document hwritten
    · rintro (hv | hnone)
      · exact hwritten.unique hv
      · exact absurd hwritten (hnone w)
  case h_2 fault hfault =>
    have hnone : ∀ w, ¬ Json.Written Json.depthLimit w piece.toList := fun w hw => by
      cases hfault.symm.trans (Json.parseWithin_eq_ok.mpr hw)
    constructor
    · rintro rfl
      exact .string hnone
    · rintro (hv | -)
      · exact absurd hv (hnone v)
      · rfl

theorem denotes_parseItem (piece : String) : Denotes piece (parseItem piece) := parseItem_eq_iff.mp rfl

/-- A document that its text keeps is the item of its text. -/
theorem parseItem_print {v : Json} (h : Json.Kept Json.depthLimit v) : parseItem v.print = v := by
  rw [parseItem, Json.parse, Json.parseWithin_print h]

variable {a : Arguments}

theorem sourceFromFlags_items {pieces : List String} (hsource : a.source = .items)
    (hitems : a.items = some pieces) : sourceFromFlags a = .items (some (pieces.map parseItem)) := by
  simp [sourceFromFlags, hsource, hitems]

/-- An item for every piece. -/
theorem forall₂_denotes (pieces : List String) :
    List.Forall₂ Denotes pieces (pieces.map parseItem) :=
  List.forall₂_map_right_iff.mpr (List.forall₂_same.mpr fun piece _ => denotes_parseItem piece)

/-- Documents that their texts keep are found again in the list of their texts. -/
theorem sourceFromFlags_print {values : List Json} (hvalues : values ≠ [])
    (hkept : ∀ v ∈ values, Json.Kept Json.depthLimit v ∧ ',' ∉ v.print.toList)
    (hsource : a.source = .items)
    (hitems : a.items = some (splitItems (",".intercalate (values.map Json.print)))) :
    sourceFromFlags a = .items (some values) := by
  have hpieces : splitItems (",".intercalate (values.map Json.print)) = values.map Json.print :=
    splitItems_intercalate (by simpa using hvalues)
      (List.forall_mem_map.mpr fun v hv => (hkept v hv).2)
  have hback : (values.map Json.print).map parseItem = values := by
    rw [List.map_map]
    exact (List.map_congr_left fun v hv => parseItem_print (hkept v hv).1).trans (List.map_id _)
  rw [sourceFromFlags_items hsource hitems, hpieces, hback]

theorem shapeOf_items_flag (raw : String) : shapeOf ("--items=" ++ raw) = .long "items" (some raw) := by
  have htext : ("--items=" ++ raw).toList =
      '-' :: '-' :: 'i' :: 't' :: 'e' :: 'm' :: 's' :: '=' :: raw.toList := by
    rw [String.toList_append]
    rfl
  unfold shapeOf
  rw [htext]
  simp [List.dropWhile, List.takeWhile]

theorem readVariables_nil (g : Given) (flags : List Flag) : readVariables [] g flags = .ok g := by
  induction flags with
  | nil => rfl
  | cons f flags ih => simp [readVariables, Environment.get?, ih]

/-- The settings of a program that is given a list of items and nothing else. -/
def itemFlags (raw : String) : Arguments :=
  { Given.none with source := some .items, items := some (splitItems raw) : Given }.complete

/-- The list of items is given as the value of a flag. -/
theorem parse_items_flag (raw : String) :
    Arguments.parse ["--source=items", "--items=" ++ raw] [] = .ok (itemFlags raw) := by
  have hsource : shapeOf "--source=items" = .long "source" (some "items") := by decide +kernel
  have hflags : Flag.ofName? "source" = some .source ∧ Flag.ofName? "items" = some .items := by decide
  let given : Given := { Given.none with source := some .items, items := some (splitItems raw) }
  have hread : readArguments .none none false ["--source=items", "--items=" ++ raw] = .ok given := by
    simp [readArguments, hsource, shapeOf_items_flag, hflags, settle, Flag.supply, Flag.assign,
      Flag.isGiven, readSource, Given.none, given, bind, Except.bind, pure, Except.pure]
  rw [Arguments.parse, hread]
  exact congrArg (· >>= fun g => pure g.complete) (readVariables_nil given Flag.all)

/-! ### Runs of a list -/

/-- A run of a finite source comes to its end, whatever has been done, and if no write has failed by
then its output is a line for each of these documents, in order, and nothing else. -/
structure WritesItems (start : System (ItemsSource Json)) (values : List Json) : Prop where
  ends : ∀ (labels : List Label) (s : System (ItemsSource Json)) (log : List LogEvent),
    start.run labels = some (s, log) →
      ∃ later s' log', s.run later = some (s', log') ∧ s'.isOver = true
  output : ∀ (labels : List Label) (s : System (ItemsSource Json)) (log : List LogEvent),
    start.run labels = some (s, log) → s.isOver = true → s.writer.isOpen = true →
      s.result = .ok ⟨values.length, values.length⟩ ∧
      s.writer.sink.taken = (linesOf (values.map (Record.ofValue 0))).toUTF8

theorem launch_items {config : RunConfig} {values : List Json}
    (hsource : config.source = .items (some values))
    (hcapacity : 0 < config.channelCapacity) (plan : SinkPlan) (times : LaunchTimes) :
    ∃ start log, launch config plan times = .ok (.items start, log) ∧ WritesItems start values := by
  have hbuild : config.source.build = .ok (.items (.new values)) := by rw [hsource]; rfl
  have hshuts : (System.start config.pollInterval config.channelCapacity plan
      [(0, ItemsSource.new values)]).1.ShutsDown fun _ => True :=
    shutsDown_start _ hcapacity plan (fun _ _ => fst_of_getElem?_singleton)
      fun _ _ => System.isClosing_of_unheeding rfl
  have hdelivers := items_run_delivers config.pollInterval config.channelCapacity plan (.new values)
  refine ⟨_, _, by unfold launch; rw [hbuild], ?_, ?_⟩
  · intro labels s log hrun
    obtain ⟨later, s', log', hlater, hover, -⟩ := (hshuts labels s log hrun).ends
    exact ⟨later, s', log', hlater, hover⟩
  · intro labels s log hrun hover hopen
    obtain ⟨-, written, hresult, -⟩ := (hshuts labels s log hrun).complete hover hopen
    obtain ⟨_, hbalanced, -, hsummary, -, rfl⟩ :=
      hdelivers.complete labels s log _ hrun hover hresult
    refine ⟨?_, hbalanced.output_eq⟩
    rw [hresult, hsummary, List.length_map]
    rfl

/-- **Item lists.** The list of items that is given to the program is split at every comma.

* Nothing of it is lost: the pieces have no commas in them, and joined by commas they are the text
  again. There is one item more than there are commas, and in order each item is the document its
  piece is a text of, and else the piece itself as a string.
* Documents that their texts keep, and that have no commas in these texts, are the items of their
  texts joined by commas; and a run of such a list that ends without a failed write has written a
  line for each of them, in order, and nothing else. -/
theorem item_list_kept :
    (∀ raw : String, Arguments.parse ["--source=items", "--items=" ++ raw] [] = .ok (itemFlags raw) ∧
      (itemFlags raw).source = .items ∧ (itemFlags raw).config = none ∧
      (itemFlags raw).items = some (splitItems raw)) ∧
    (∀ (a : Arguments) (raw : String), a.source = .items → a.items = some (splitItems raw) →
      (",".intercalate (splitItems raw) = raw ∧ ∀ piece ∈ splitItems raw, ',' ∉ piece.toList) ∧
      ∃ values, sourceFromFlags a = .items (some values) ∧
        values.length = raw.toList.count ',' + 1 ∧ List.Forall₂ Denotes (splitItems raw) values) ∧
    ∀ (a : Arguments) (values : List Json), values ≠ [] →
      (∀ v ∈ values, Json.Kept Json.depthLimit v ∧ ',' ∉ v.print.toList) → a.source = .items →
      a.items = some (splitItems (",".intercalate (values.map Json.print))) →
      sourceFromFlags a = .items (some values) ∧
      ∀ (files : Files) (processors : Nat) (config : RunConfig), a.config = none →
        configure files processors a = .ok config → ∀ (plan : SinkPlan) (times : LaunchTimes),
          ∃ start log, launch config plan times = .ok (.items start, log) ∧
            WritesItems start values := by
  refine ⟨fun raw => ⟨parse_items_flag raw, rfl, rfl, rfl⟩, fun a raw hsource hitems => ?_,
    fun a values hvalues hkept hsource hitems => ?_⟩
  · refine ⟨⟨intercalate_splitItems raw, fun piece => comma_notMem_item⟩, _,
      sourceFromFlags_items hsource hitems, ?_, forall₂_denotes _⟩
    rw [List.length_map, splitItems_length]
  · have hfound := sourceFromFlags_print hvalues hkept hsource hitems
    refine ⟨hfound, fun files processors config hnone hconfigure plan times => ?_⟩
    have haccepts := configure_eq_ok.mp hconfigure
    have hsource := findSource_eq_ok.mpr haccepts.source
    rw [Arguments.findSource, hnone] at hsource
    have hconfig : config.source = .items (some values) :=
      (Except.ok.inj hsource).symm.trans hfound
    exact launch_items hconfig haccepts.capacity_pos plan times

/-- A string, a negative integer, an object and minus zero. -/
theorem item_list_kept_of_documents :
    let values : List Json := [.string "é", .int (-3), .object [("k", .array [.null])],
      .number (.float (.zero true))]
    let a := itemFlags (",".intercalate (values.map Json.print))
    values ≠ [] ∧ (∀ v ∈ values, Json.Kept Json.depthLimit v ∧ ',' ∉ v.print.toList) ∧
      a.source = .items ∧ a.config = none ∧ sourceFromFlags a = .items (some values) ∧
      ∃ config, configure (fun _ => .error .notFound) 4 a = .ok config ∧
        ∃ start log, launch config .willing (.at ⟨0, 0⟩) = .ok (.items start, log) ∧
          WritesItems start values := by
  intro values a
  have hvalues : values ≠ [] := nofun
  have hkept : ∀ v ∈ values, Json.Kept Json.depthLimit v ∧ ',' ∉ v.print.toList := by
    intro v hv
    simp only [values, List.mem_cons, List.not_mem_nil, or_false] at hv
    rcases hv with rfl | rfl | rfl | rfl
    · exact ⟨.string, by decide⟩
    · exact ⟨.number (.int (by decide) (by decide)), by decide⟩
    · refine ⟨.object (List.pairwise_singleton ..) (List.forall_mem_singleton.mpr ?_), by decide⟩
      exact .array (List.forall_mem_singleton.mpr .null)
    · exact ⟨.number Json.minusZero_text, by decide⟩
  obtain ⟨hfound, hruns⟩ := item_list_kept.2.2 a values hvalues hkept rfl rfl
  have hconfigure : configure (fun _ => .error .notFound) 4 a = .ok ⟨sourceFromFlags a,
      ⟨4, by decide⟩, ⟨1, by decide⟩, none, .ofMillis 10, 64⟩ := rfl
  exact ⟨hvalues, hkept, rfl, rfl, hfound, _, hconfigure, hruns _ 4 _ rfl hconfigure _ _⟩

/-- A large double without a fraction is another double after it was passed as its own text, and a
text of 128 arrays inside each other is passed as a string. -/
theorem item_list_changes :
    (∃ v w : Json, v = .number (.float (.finite false 8940696716308594 25)) ∧ v.print = "3e+23" ∧
      sourceFromFlags (itemFlags v.print) = .items (some [w]) ∧ w ≠ v) ∧
    ∃ piece, piece = String.ofList (Json.nestedText 127) ∧
      Json.Written 128 (Json.nested 127) piece.toList ∧
      sourceFromFlags (itemFlags piece) = .items (some [.string piece]) := by
  have hprint : (Json.number (.float (.finite false 8940696716308594 25))).print = "3e+23" := by
    decide +kernel
  have hchanged : sourceFromFlags (itemFlags "3e+23") =
      .items (some [.number (.float (.finite false 8940696716308593 25))]) := by decide +kernel
  refine ⟨⟨_, _, rfl, hprint, by rw [hprint]; exact hchanged, by decide⟩, _, rfl, ?_, ?_⟩
  · rw [String.toList_ofList]
    exact Json.nested_written 127
  · have hcomma : ',' ∉ (String.ofList (Json.nestedText 127)).toList := by
      rw [String.toList_ofList]
      exact Json.comma_notMem_nestedText 127
    rw [sourceFromFlags_items rfl rfl, splitItems_of_notMem hcomma, List.map_singleton, parseItem,
      Json.parse, Json.parseWithin_nested_eq_error (by decide)]

end Pacing.Cli
