import Satzbau.Files
import Satzbau.Proofs.Respelling.Lines

namespace Satzbau

theorem segments_eq_splitOn (text : List Char) : segments text = text.splitOn '/' := by
  induction text with
  | nil => rfl
  | cons c rest ih =>
    rw [List.splitOn, List.splitOnP_cons_eq_if_modifyHead, segments, ih, List.splitOn]
    by_cases isSlash : c = '/'
    · rw [if_pos isSlash, if_pos (beq_iff_eq.mpr isSlash)]
    · rw [if_neg isSlash, if_neg (mt beq_iff_eq.mp isSlash)]
      cases split : rest.splitOnP (· == '/') with
      | nil => exact absurd split (List.splitOnP_ne_nil _ _)
      | cons first others => rfl

theorem noSlash_of_mem_segments {text piece : List Char} (member : piece ∈ segments text) : '/' ∉ piece := by
  induction text generalizing piece with
  | nil =>
    rw [List.mem_singleton.mp member]
    exact List.not_mem_nil
  | cons c rest ih =>
    unfold segments at member
    split at member
    · obtain rfl | later := List.mem_cons.mp member
      · exact List.not_mem_nil
      · exact ih later
    · rename_i other
      have apart {piece : List Char} (noSlash : '/' ∉ piece) : '/' ∉ c :: piece := by
        rw [List.mem_cons, not_or]
        exact ⟨fun same => other same.symm, noSlash⟩
      split at member
      · rw [List.mem_singleton.mp member]
        exact apart List.not_mem_nil
      · rename_i first others cut
        obtain rfl | later := List.mem_cons.mp member
        · exact apart (ih (cut ▸ List.mem_cons_self ..))
        · exact ih (cut ▸ List.mem_cons_of_mem _ later)

/-- Names that a walk steps into. -/
def Place.IsProper (place : Place) : Prop :=
  ∀ name ∈ place, name ≠ "" ∧ name ≠ "." ∧ name ≠ ".." ∧ '/' ∉ name.toList

theorem FileName.isAbsolute_found (place : Place) : (FileName.found place).path.isAbsolute = true := by
  unfold FileName.path Path.isAbsolute
  rw [String.toList_append]
  rfl

/-- The steps along the path of a place: first one that stays at the root, then one for each name. -/
theorem FileName.steps_found {place : Place} (proper : place.IsProper) :
    (FileName.found place).path.steps = "" :: if place = [] then [""] else place := by
  have spelled : (FileName.found place).path.written.toList = '/' :: ['/'].intercalate (place.map String.toList) := by
    unfold FileName.path
    rw [String.toList_append, String.toList_intercalate]
    rfl
  have names : (place.map String.toList).map String.ofList = place := by
    rw [List.map_map]
    exact (List.map_congr_left fun name _ => String.ofList_toList).trans (List.map_id _)
  unfold Path.steps
  rw [spelled, segments, if_pos rfl, segments_eq_splitOn]
  by_cases empty : place = []
  · subst empty
    rfl
  · have noSlash : ∀ piece ∈ place.map String.toList, '/' ∉ piece := by
      intro piece member
      obtain ⟨name, inside, rfl⟩ := List.mem_map.mp member
      exact (proper name inside).2.2.2
    rw [List.splitOn_intercalate '/' noSlash (by simpa using empty), List.map_cons, names, if_neg empty]

/-- Places have different paths. -/
theorem FileName.path_injective {place place' : Place} (proper : place.IsProper) (proper' : place'.IsProper)
    (same : (FileName.found place).path = (FileName.found place').path) : place = place' := by
  have named {place : Place} (proper : place.IsProper) : place ≠ [""] := by
    rintro rfl
    exact (proper "" (List.mem_singleton_self _)).1 rfl
  have steps := congrArg Path.steps same
  rw [steps_found proper, steps_found proper', List.cons.injEq] at steps
  split at steps
  · rename_i isRoot
    split at steps
    · rename_i isRoot'
      rw [isRoot, isRoot']
    · exact absurd steps.2.symm (named proper')
  · split at steps
    · exact absurd steps.2 (named proper)
    · exact steps.2

namespace Files

/-- A tree whose files have names that a walk steps into. -/
def IsProper (files : Files) : Prop :=
  ∀ entry ∈ files.contents, Place.IsProper entry.1

theorem stepBlindly_proper {place : Place} {segment : String} (proper : place.IsProper) (noSlash : '/' ∉ segment.toList) :
    (stepBlindly place segment).IsProper := by
  unfold stepBlindly
  split
  · exact proper
  · rename_i moves
    split
    · exact fun name member => proper name ((List.dropLast_prefix place).subset member)
    · rename_i notUp
      intro name member
      obtain inside | last := List.mem_append.mp member
      · exact proper name inside
      · cases List.mem_singleton.mp last
        exact ⟨(not_or.mp moves).1, (not_or.mp moves).2, notUp, noSlash⟩

theorem passed_proper {steps : List String} (noSlash : ∀ segment ∈ steps, '/' ∉ segment.toList) {place : Place}
    (proper : place.IsProper) : ∀ other ∈ passed place steps, other.IsProper := by
  induction steps generalizing place with
  | nil =>
    intro other member
    exact List.mem_singleton.mp member ▸ proper
  | cons segment later ih =>
    intro other member
    obtain rfl | inLater := List.mem_cons.mp member
    · exact proper
    · exact ih (fun other among => noSlash other (List.mem_cons_of_mem _ among))
        (stepBlindly_proper proper (noSlash segment (List.mem_cons_self ..))) other inLater

/-- Files that a tree learns of have proper names. -/
theorem IsProper.learn {files : Files} (proper : files.IsProper) (workingDirectory : files.workingDirectory.IsProper)
    (path : Path) (content : Option ByteArray) : (files.learn path content).IsProper := by
  have noSlash : ∀ segment ∈ path.steps, '/' ∉ segment.toList := by
    intro segment member
    obtain ⟨piece, among, rfl⟩ := List.mem_map.mp member
    rw [String.toList_ofList]
    exact noSlash_of_mem_segments among
  have starts : (files.startOf path).IsProper := by
    unfold startOf
    split
    · exact fun _ impossible => absurd impossible List.not_mem_nil
    · exact workingDirectory
  cases content with
  | none => exact proper
  | some content =>
    intro entry member
    obtain rfl | old := List.mem_cons.mp member
    · have ends := passed_proper noSlash starts
      cases last : (passed (files.startOf path) path.steps).getLast? with
      | none => exact fun _ impossible => absurd impossible List.not_mem_nil
      | some place => exact ends place (List.mem_of_getLast? last)
    · exact proper entry old

/-- A step into a proper name leads there or nowhere. -/
theorem step_proper {files : Files} {place place' : Place} {name : String} (notEmpty : name ≠ "") (notHere : name ≠ ".")
    (notUp : name ≠ "..") (stepped : files.step place name = .ok place') : place' = place ++ [name] := by
  unfold step at stepped
  split at stepped
  · contradiction
  · contradiction
  · rw [if_neg (not_or.mpr ⟨notEmpty, notHere⟩), if_neg notUp] at stepped
    split at stepped
    · contradiction
    · split at stepped
      · contradiction
      · cases stepped
        rfl

/-- A step that stays. -/
theorem step_empty {files : Files} {place place' : Place} (stepped : files.step place "" = .ok place') : place' = place := by
  unfold step at stepped
  split at stepped
  · contradiction
  · contradiction
  · rw [if_pos (Or.inl rfl)] at stepped
    cases stepped
    rfl

theorem foldlM_step_proper {files : Files} {names : List String} (proper : Place.IsProper names) {place place' : Place}
    (walked : names.foldlM files.step place = .ok place') : place' = place ++ names := by
  induction names generalizing place with
  | nil =>
    cases walked
    rw [List.append_nil]
  | cons name later ih =>
    rw [List.foldlM_cons] at walked
    obtain ⟨notEmpty, notHere, notUp, _⟩ := proper name (List.mem_cons_self ..)
    cases stepped : files.step place name with
    | error fault =>
      rw [stepped] at walked
      contradiction
    | ok next =>
      rw [stepped] at walked
      rw [ih (fun other member => proper other (List.mem_cons_of_mem _ member)) walked,
        step_proper notEmpty notHere notUp stepped, List.append_assoc]
      rfl

/-- The path of a place leads to it if it leads anywhere. -/
theorem resolve_found {files : Files} {place place' : Place} (proper : place.IsProper)
    (resolved : files.resolve (FileName.found place).path = .ok place') : place' = place := by
  unfold resolve walk startOf at resolved
  rw [FileName.isAbsolute_found, FileName.steps_found proper, if_pos rfl] at resolved
  split at resolved
  · contradiction
  · split at resolved
    · contradiction
    · split at resolved
      · contradiction
      · rw [List.foldlM_cons] at resolved
        cases stepped : files.step [] "" with
        | error fault =>
          rw [stepped] at resolved
          contradiction
        | ok root =>
          rw [stepped] at resolved
          obtain rfl := step_empty stepped
          replace resolved : (if place = [] then [""] else place).foldlM files.step [] = .ok place' := resolved
          split at resolved
          · rename_i isRoot
            simp only [List.foldlM_cons, List.foldlM_nil, bind_pure] at resolved
            rw [isRoot, step_empty resolved]
          · exact foldlM_step_proper proper resolved

/-- A tree of files into some of which declensions were written. -/
structure RespelledBy (w : Place → Nat → Option Declension) (files files' : Files) : Prop where
  directories : files'.directories = files.directories
  workingDirectory : files'.workingDirectory = files.workingDirectory
  places : files'.contents.map Prod.fst = files.contents.map Prod.fst
  textAt : ∀ place, files'.textAt place = (files.textAt place).map (respell (w place))

theorem lookup_isSome_of_keys {α β : Type} [BEq α] {entries entries' : List (α × β)}
    (keys : entries'.map Prod.fst = entries.map Prod.fst) (key : α) :
    (entries'.lookup key).isSome = (entries.lookup key).isSome := by
  induction entries generalizing entries' with
  | nil => rw [List.map_eq_nil_iff.mp keys]
  | cons first later ih =>
    obtain ⟨first', later', rfl, same, keys⟩ := List.map_eq_cons_iff.mp keys
    rw [List.lookup_cons, List.lookup_cons, same]
    split
    · rfl
    · exact ih keys

variable {files files' : Files} {w : Place → Nat → Option Declension}

theorem isAbove_of_places (directories : files'.directories = files.directories)
    (workingDirectory : files'.workingDirectory = files.workingDirectory)
    (places : files'.contents.map Prod.fst = files.contents.map Prod.fst) (place : Place) :
    files'.isAbove place = files.isAbove place := by
  have any (entries : List (Place × ByteArray)) : (entries.any fun entry => place.isPrefixOf entry.1) =
      (entries.map Prod.fst).any place.isPrefixOf := by
    rw [List.any_map]
    rfl
  unfold Files.isAbove
  rw [any, any, places, directories, workingDirectory]

/-- Files stay files and directories stay directories. -/
theorem RespelledBy.member? (respelled : RespelledBy w files files') (place : Place) :
    (∃ content content', files.member? place = some (.file content) ∧ files'.member? place = some (.file content')) ∨
      (∀ content, files.member? place ≠ some (.file content)) ∧ files'.member? place = files.member? place := by
  have known := lookup_isSome_of_keys respelled.places place
  unfold Files.member?
  rw [isAbove_of_places respelled.directories respelled.workingDirectory respelled.places]
  cases found : files.contents.lookup place with
  | some content =>
    rw [found, Option.isSome_some, Option.isSome_iff_exists] at known
    obtain ⟨content', found'⟩ := known
    rw [found']
    exact Or.inl ⟨content, content', rfl, rfl⟩
  | none =>
    rw [found, Option.isSome_none, Option.isSome_eq_false_iff, Option.isNone_iff_eq_none] at known
    rw [known]
    refine Or.inr ⟨fun content impossible => ?_, rfl⟩
    dsimp only at impossible
    split at impossible <;> cases impossible

theorem RespelledBy.step (respelled : RespelledBy w files files') (place : Place) (name : String) :
    files'.step place name = files.step place name := by
  unfold Files.step
  rcases respelled.member? place with ⟨content, content', found, found'⟩ | ⟨noFile, same⟩
  · rw [found, found']
  · rw [same]
    split
    · rfl
    · rename_i content found
      exact absurd found (noFile content)
    · rcases respelled.member? (place ++ [name]) with ⟨content, content', found, found'⟩ | ⟨_, same⟩
      · rw [found, found']
      · rw [same]

theorem RespelledBy.walk (respelled : RespelledBy w files files') (path : Path) : files'.walk path = files.walk path := by
  have steps : files'.step = files.step := funext fun place => funext fun name => respelled.step place name
  unfold Files.walk startOf
  rw [steps, respelled.workingDirectory]

theorem RespelledBy.resolve (respelled : RespelledBy w files files') (path : Path) :
    files'.resolve path = files.resolve path := by
  unfold Files.resolve
  rw [respelled.walk]

theorem RespelledBy.identify (respelled : RespelledBy w files files') (path : Path) :
    files'.identify path = files.identify path := by
  unfold Files.identify
  rw [respelled.walk]

/-- What cannot be read stays so. -/
theorem RespelledBy.text_error (respelled : RespelledBy w files files') {name : FileName} {fault : ReadFault}
    (unreadable : files.text name = .error fault) : files'.text name = .error fault := by
  cases name with
  | found place =>
    have same := respelled.textAt place
    rw [show files.textAt place = .error fault from unreadable] at same
    exact same
  | absent path =>
    unfold Files.text at unreadable ⊢
    dsimp only at unreadable ⊢
    rw [respelled.resolve]
    exact unreadable

theorem RespelledBy.text_ok (respelled : RespelledBy w files files') {place : Place} {text : String}
    (readable : files.text (.found place) = .ok text) : files'.text (.found place) = .ok (respell (w place) text) := by
  have same := respelled.textAt place
  rw [show files.textAt place = .ok text from readable] at same
  exact same

/-- Before anything is written. -/
theorem RespelledBy.refl (files : Files) : RespelledBy (fun _ _ => Option.none) files files := by
  refine ⟨rfl, rfl, rfl, fun place => ?_⟩
  cases files.textAt place with
  | error fault => rfl
  | ok text => exact congrArg Except.ok (respell_none text).symm

theorem fromUTF8?_toUTF8 (text : String) : String.fromUTF8? text.toUTF8 = some text := by
  unfold String.fromUTF8?
  exact dif_pos text.isValidUTF8

theorem lookup_writeAt {place : Place} (contents : List (Place × ByteArray)) (content : ByteArray) (other : Place) :
    (contents.map fun entry => if entry.1 = place then (place, content) else entry).lookup other =
      if other = place then (contents.lookup other).map fun _ => content else contents.lookup other := by
  induction contents with
  | nil => simp
  | cons first later ih =>
    rw [List.map_cons, List.lookup_cons, List.lookup_cons, ih]
    by_cases here : first.1 = place
    · by_cases found : other = place
      · simp [here, found]
      · have other' : (other == place) = false := beq_eq_false_iff_ne.mpr found
        simp [here, found, other']
    · rw [if_neg here]
      by_cases found : other = place
      · have other' : (place == first.1) = false := beq_eq_false_iff_ne.mpr fun same => here same.symm
        simp [found, other']
      · simp [found]

theorem places_writeAt (files : Files) (place : Place) (text : String) :
    (files.writeAt place text).contents.map Prod.fst = files.contents.map Prod.fst := by
  unfold Files.writeAt
  rw [List.map_map]
  refine List.map_congr_left fun entry _ => ?_
  dsimp only [Function.comp_apply]
  split
  · rename_i same
    exact same.symm
  · rfl

theorem lookup_of_textAt {place : Place} {text : String} (isFile : files.textAt place = .ok text) :
    ∃ content, files.contents.lookup place = some content := by
  unfold Files.textAt at isFile
  split at isFile
  · contradiction
  · contradiction
  · rename_i content member
    unfold Files.member? at member
    split at member
    · rename_i content' found
      exact ⟨content', found⟩
    · split at member <;> cases member

theorem textAt_writeAt {place : Place} {before : String} (isFile : files.textAt place = .ok before) (text : String)
    (other : Place) : (files.writeAt place text).textAt other = if other = place then .ok text else files.textAt other := by
  have member : (files.writeAt place text).member? other =
      if other = place then some (.file text.toUTF8) else files.member? other := by
    have lookup : (files.writeAt place text).contents.lookup other = _ :=
      @lookup_writeAt place files.contents text.toUTF8 other
    have above := @isAbove_of_places files (files.writeAt place text) rfl rfl (places_writeAt files place text) other
    unfold Files.member?
    rw [above, lookup]
    by_cases here : other = place
    · obtain ⟨content, found⟩ := lookup_of_textAt isFile
      simp only [here, if_true, found, Option.map_some]
    · simp only [here, if_false]
  unfold Files.textAt
  rw [member]
  by_cases here : other = place
  · simp only [here, if_true, fromUTF8?_toUTF8]
  · simp only [here, if_false]

theorem RespelledBy.writeAt {place : Place} {text : String} {number : Nat} {d : Declension} {changed : List Char}
    (respelled : RespelledBy w files files') (writable : Writable (w place)) (before : files'.textAt place = .ok text)
    (replaced : replaceLine text.toList number d.text.toList = some changed) :
    RespelledBy (fun other line => if other = place ∧ line = number then some d else w other line) files
      (files'.writeAt place (String.ofList changed)) := by
  refine ⟨respelled.directories, respelled.workingDirectory, (places_writeAt ..).trans respelled.places, fun other => ?_⟩
  rw [textAt_writeAt before]
  by_cases here : other = place
  · subst here
    have same := respelled.textAt other
    rw [before] at same
    cases original : files.textAt other with
    | error fault =>
      rw [original] at same
      contradiction
    | ok first =>
      rw [original] at same
      cases same
      simp only [true_and, if_true, replaceLine_respell writable replaced]
      rfl
  · simp only [here, false_and, if_false]
    exact respelled.textAt other

end Files

end Satzbau
