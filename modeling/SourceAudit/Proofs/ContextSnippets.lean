import SourceAudit.Project.Context
import SourceAudit.Proofs.CrossFileChains
import SourceAudit.Proofs.EvidenceChecks
import SourceAudit.Proofs.FirstOccurrences

/-!
# Snippets around the points of chains

Each point of a chain in an indexed file has the lines around it among the snippets, and no range of a
file is shown twice.  A point without a line of its own has an empty snippet.  A limit on the number of
snippets cuts the list of all snippets off.
-/

open List

namespace SourceAudit.Project

open Outcome

/-! ## Snippets -/

def Snippet.spot (snip : Snippet) : String × Int × Int :=
  (snip.file.plain, snip.first, snip.last)

/-- The lines of the files of an index, how far a snippet reaches, and how its code is shown. -/
structure Scene where
  sources : String → Option (List String)
  reach : Int
  shown : String → String

/-- A point with the name of an indexed file and a number for its line. -/
structure PointsTo (sources : String → Option (List String)) (point : Value × Value) (file : String)
    (line : Int) (lines : List String) : Prop where
  place : point.1 = .text file
  named : file ≠ ""
  given : point.2.truthy = true
  number : point.2.toInteger = .ok line
  known : sources file = some lines

/-- The lines around a line, clipped to the file. -/
def lineWindow (reach : Int) (ls : List String) (ln : Int) : Int × Int × String :=
  if ln ≤ 0 then (1, 1, "")
  else
    let a := max (ln - reach) 1
    let last := min (ln + reach) ls.length
    (a, last, Str.join "\n" (linesFromTo a last ls))

namespace Scene

variable (scene : Scene)

def view (file : String) (ln : Int) (ls : List String) : Snippet :=
  let (a, last, code) := lineWindow scene.reach ls ln
  ⟨.text file, a, last, scene.shown code⟩

def snippet? (point : Value × Value) : Option Snippet :=
  match point.1, point.2.toInteger with
  | .text file, .ok ln =>
    if file.isEmpty || !point.2.truthy then none else (scene.sources file).map (scene.view file ln)
  | _, _ => none

/-- The snippets of the points met so far, without those of a range that was met before. -/
def kept (met : List (Value × Value)) : List Snippet :=
  firstOfEach Snippet.spot [] (met.filterMap scene.snippet?)

variable {scene} {pt : Value × Value} {snip : Snippet} {past : List (Value × Value)}

theorem snippet?_of_pointsTo {file : String} {ln : Int} {ls : List String}
    (ht : PointsTo scene.sources pt file ln ls) :
    scene.snippet? pt = some (scene.view file ln ls) := by
  simp [snippet?, ht.place, ht.number, ht.named, ht.given, ht.known]

theorem exists_pointsTo (made : scene.snippet? pt = some snip) :
    ∃ file ln ls, PointsTo scene.sources pt file ln ls ∧ snip = scene.view file ln ls := by
  rw [snippet?] at made
  split at made
  · next file ln path number =>
    split_ifs at made with hmiss
    rw [Bool.or_eq_true, not_or] at hmiss
    obtain ⟨ls, hk, rfl⟩ := Option.map_eq_some_iff.mp made
    exact ⟨file, ln, ls, ⟨path, by simpa using hmiss.1, by simpa using hmiss.2, number, hk⟩,
      rfl⟩
  · cases made

theorem exists_point_of_kept (hm : snip ∈ scene.kept past) :
    ∃ pt ∈ past, ∃ file ln ls, PointsTo scene.sources pt file ln ls ∧
      snip = scene.view file ln ls := by
  obtain ⟨pt, met, made⟩ := mem_filterMap.mp (firstsBy_sublist.subset hm)
  exact ⟨pt, met, exists_pointsTo made⟩

theorem kept_append (past more : List (Value × Value)) :
    ∃ new, scene.kept (past ++ more) = scene.kept past ++ new ∧ new.length ≤ more.length := by
  rw [kept, filterMap_append]
  exact ⟨_, firstOfEach_append _ _, firstsBy_sublist.length_le.trans (length_filterMap_le _ _)⟩

theorem kept_concat (past : List (Value × Value)) (made : scene.snippet? pt = some snip) :
    (snip.spot ∈ (scene.kept past).map Snippet.spot → scene.kept (past ++ [pt]) = scene.kept past) ∧
      (snip.spot ∉ (scene.kept past).map Snippet.spot →
        scene.kept (past ++ [pt]) = scene.kept past ++ [snip]) := by
  have met : snip.spot ∈ (scene.kept past).map Snippet.spot ↔ _ := oncePer_firstOfEach.complete _
  unfold kept at met ⊢
  rw [filterMap_append, filterMap_cons_some made, filterMap_nil, firstOfEach_concat]
  exact ⟨fun ht => if_pos (met.mp ht), fun new => if_neg (mt met.mpr new)⟩

end Scene

theorem among_iff_spot {snip : Snippet} {f : List Snippet} {file : String}
    (own : snip.file = .text file) (all : ∀ other ∈ f, ∃ file, other.file = .text file) :
    snip.key.among (f.map (·.key)) = true ↔ snip.spot ∈ f.map Snippet.spot := by
  have same_text (one other : String) : (Value.text one).same (.text other) = (one == other) := by
    rw [Value.same]
  rw [Value.among, any_map, any_eq_true, mem_map]
  refine exists_congr fun other => and_congr_right fun hm => ?_
  obtain ⟨p, also⟩ := all other hm
  simp only [Function.comp_apply, Snippet.key, Snippet.spot, own, also, Value.alike, Value.same,
    Value.sameItems, same_int, same_text, Value.sameNaN, Bool.false_or, Bool.and_eq_true, beq_iff_eq,
    decide_eq_true_eq, and_true, Value.plain, Prod.mk.injEq]
  rw [eq_comm, @eq_comm _ snip.first, @eq_comm _ snip.last]

theorem joinTexts_map (glue : String) (texts : List String) :
    Value.joinTexts glue (texts.map .text) = .ok (Str.join glue texts) := by
  rw [Value.joinTexts, zipIdx_map, mapM_map]
  refine (bind_ok (mapM_eq_ok_map fun numbered _ => (rfl : _ = Except.ok numbered.1))).trans ?_
  rw [zipIdx_map_fst]

/-! ## One point -/

/-- A point has the name of a file and a number for its line, where it has them at all. -/
structure LegiblePoint (point : Value × Value) : Prop where
  file : point.1.truthy = true → ∃ file, point.1 = .text file
  line : point.2.truthy = true → ∃ line, point.2.toInteger = .ok line

def Indexes (files : Value) (srcs : String → Option (List String)) : Prop :=
  ∀ p, ∃ info, files.entry (.text p) = .ok info ∧ info.truthy = (srcs p).isSome ∧
    ∀ ls, srcs p = some ls → info.getD "lines" (.list []) = .ok (.ofTexts ls)

def shownBy (redacted : Bool) (pats : Value) (code : String) : Outcome String :=
  if redacted && !code.isEmpty then do redact code (← pats.items) else pure code

structure Shows (options : ContextOptions) (scene : Scene) : Prop where
  files : Indexes options.files scene.sources
  radius : options.radius = .int scene.reach
  shown : ∀ code, shownBy options.redacted options.patterns code = .ok (scene.shown code)

variable {opts : ContextOptions} {scene : Scene}

theorem around_eq (ls : List String) (ln reach : Int) :
    around (Value.ofTexts ls) ln (.int reach) = .ok (lineWindow reach ls ln) := by
  rw [around, lineWindow]
  split_ifs
  · rfl
  · have minus : (Value.int ln).minus (.int reach) = .ok (.int (ln - reach)) := rfl
    have plus : (Value.int ln).plus (.int reach) = .ok (.int (ln + reach)) := rfl
    have items : (Value.ofTexts ls).items = .ok (ls.map .text) := rfl
    have length : (Value.ofTexts ls).length = .ok ls.length := by
      rw [Value.ofTexts, Value.length, length_map]
    rw [bind_ok minus, bind_ok (raisedTo_int _ _), bind_ok plus, bind_ok length,
      bind_ok (loweredTo_int _ _), bind_ok items, linesFromTo, ← map_take, ← map_drop,
      bind_ok (joinTexts_map _ _)]
    rfl

theorem addPoint_kept (shows : Shows opts scene) {pt : Value × Value}
    (hleg : LegiblePoint pt) (past : List (Value × Value)) :
    addPoint opts (scene.kept past) pt = .ok (scene.kept (past ++ [pt])) := by
  have unmet (none : scene.snippet? pt = none) : scene.kept (past ++ [pt]) = scene.kept past := by
    simp [Scene.kept, filterMap_append, none]
  obtain ⟨path, number⟩ := pt
  rw [addPoint]
  dsimp only
  by_cases both : (path.truthy && number.truthy) = true
  · obtain ⟨one, two⟩ := Bool.and_eq_true_iff.mp both
    obtain ⟨file, rfl⟩ := hleg.file one
    obtain ⟨ln, hc⟩ := hleg.line two
    obtain ⟨info, entered, truthy, hl⟩ := shows.files file
    rw [one, two, bind_ok entered, truthy]
    cases hk : scene.sources file with
    | none =>
      rw [unmet (by simp [Scene.snippet?, hc, hk])]
      rfl
    | some ls =>
      obtain ⟨old, new⟩ := Scene.kept_concat past (Scene.snippet?_of_pointsTo
        (⟨rfl, by simpa [Value.truthy] using one, two, hc, hk⟩ :
          PointsTo scene.sources (.text file, number) file ln ls))
      rw [bind_ok (hl ls hk), bind_ok hc, shows.radius, bind_ok (around_eq ls ln _)]
      unfold Scene.view at old new
      generalize lineWindow scene.reach ls ln = shape at old new
      have met := @among_iff_spot ⟨.text file, shape.1, shape.2.1, shape.2.2⟩ (scene.kept past) file rfl
        fun other hm => by
          obtain ⟨_, _, path, _, _, _, rfl⟩ := Scene.exists_point_of_kept hm
          exact ⟨path, rfl⟩
      have added := congrArg (· >>= fun code =>
        (pure (scene.kept past ++ [⟨.text file, shape.1, shape.2.1, code⟩]) : Outcome _))
        (shows.shown shape.2.2)
      rw [shownBy, ite_bind, bind_assoc] at added
      by_cases ht : (file, shape.1, shape.2.1) ∈ (scene.kept past).map Snippet.spot
      · rw [old ht]
        exact if_pos (met.mpr ht)
      · rw [new ht]
        exact (if_neg (mt met.mp ht)).trans added
  · have either : (!path.truthy || !number.truthy) = true := by
      rwa [← Bool.not_and, Bool.not_eq_true', ← Bool.not_eq_true]
    rw [if_pos either, unmet]
    · rfl
    · refine Option.eq_none_iff_forall_ne_some.mpr fun snip made => both ?_
      obtain ⟨file, _, _, ht, _⟩ := Scene.exists_pointsTo made
      rw [Bool.and_eq_true, show path = .text file from ht.place]
      exact ⟨by simpa [Value.truthy] using ht.named, ht.given⟩

/-! ## Runs with a limit -/

abbrev Filled (lim : Nat) (f : List Snippet) : Prop :=
  0 < lim ∧ lim ≤ f.length

/-- What a limit leaves of a list; no limit is written as zero. -/
def cutTo (lim : Nat) (f : List Snippet) : List Snippet :=
  if lim = 0 then f else f.take lim

section

variable {lim : Nat} {f more : List Snippet} {past : List (Value × Value)}

theorem cutTo_of_le (room : lim = 0 ∨ f.length ≤ lim) : cutTo lim f = f := by
  rw [cutTo, ite_eq_left_iff]
  intro limited
  exact take_of_length_le (room.resolve_left limited)

/-- Once a limit is filled, what is met later makes no difference. -/
theorem cutTo_kept_append (hfl : Filled lim (scene.kept past)) (later : List (Value × Value)) :
    cutTo lim (scene.kept (past ++ later)) = cutTo lim (scene.kept past) := by
  obtain ⟨new, whole, _⟩ := Scene.kept_append past later
  rw [cutTo, cutTo, if_neg hfl.1.ne', if_neg hfl.1.ne', whole, take_append_of_le_length hfl.2]

theorem addPoints_cons (limited : opts.limit = .int lim) (room : ¬ Filled lim f)
    (grown : f.length ≤ more.length) {pt : Value × Value}
    (added : addPoint opts f pt = .ok more) (tl : List (Value × Value)) :
    addPoints opts f (pt :: tl) = if Filled lim more then .ok more else addPoints opts more tl := by
  rw [addPoints, bind_ok added, limited, reaches_int]
  dsimp only
  split_ifs with longer hfl hfl
  · rw [bind_ok rfl, decide_eq_true hfl, if_pos rfl]
  · rw [bind_ok rfl, decide_eq_false hfl, if_neg Bool.false_ne_true]
  · omega
  · exact bind_ok rfl

theorem addPoints_kept (shows : Shows opts scene) (limited : opts.limit = .int lim)
    {points : List (Value × Value)} (hleg : ∀ pt ∈ points, LegiblePoint pt)
    (room : ¬ Filled lim (scene.kept past)) :
    addPoints opts (scene.kept past) points = .ok (cutTo lim (scene.kept (past ++ points))) := by
  induction points generalizing past with
  | nil =>
    rw [addPoints, append_nil, cutTo_of_le]
    omega
  | cons pt tl ih =>
    obtain ⟨hh, behind⟩ := forall_mem_cons.mp hleg
    obtain ⟨new, grown, few⟩ := @Scene.kept_append scene past [pt]
    have longer := congrArg List.length grown
    rw [length_append] at longer
    rw [length_singleton] at few
    rw [append_cons past pt tl,
      addPoints_cons limited room (by omega) (addPoint_kept shows hh past)]
    split_ifs with hfl
    · rw [cutTo_kept_append hfl, cutTo_of_le]
      omega
    · exact ih behind hfl

theorem addChains_kept (shows : Shows opts scene) (limited : opts.limit = .int lim)
    {candidates : List Value} {lists : List (List (Value × Value))}
    (hr : candidates.mapM pointsOf = .ok lists) (hleg : ∀ pt ∈ lists.flatten, LegiblePoint pt)
    (room : ¬ Filled lim (scene.kept past)) :
    addChains opts (scene.kept past) candidates =
      .ok (cutTo lim (scene.kept (past ++ lists.flatten))) := by
  induction candidates generalizing past lists with
  | nil =>
    obtain rfl : [] = lists := Except.ok.inj hr
    rw [addChains, flatten_nil, append_nil, cutTo_of_le]
    omega
  | cons candidate tl ih =>
    rw [mapM_cons] at hr
    obtain ⟨points, one, hr⟩ := bind_eq_ok.mp hr
    obtain ⟨others, two, hs⟩ := bind_eq_ok.mp hr
    cases hs
    rw [flatten_cons, forall_mem_append] at hleg
    rw [addChains, bind_ok one, bind_ok (addPoints_kept shows limited hleg.1 room), limited,
      reaches_int, bind_ok rfl, flatten_cons, ← append_assoc]
    by_cases hfl : Filled lim (scene.kept (past ++ points))
    · have also : Filled lim (cutTo lim (scene.kept (past ++ points))) := by
        refine ⟨hfl.1, ?_⟩
        rw [cutTo, if_neg hfl.1.ne', length_take]
        omega
      rw [decide_eq_true also, if_pos rfl, cutTo_kept_append hfl]
    · rw [cutTo_of_le (by omega), decide_eq_false hfl, if_neg Bool.false_ne_true]
      exact ih two hleg.2 hfl

end

/-! ## All snippets -/

theorem radiusOf_int (size : Int) : radiusOf (.int size) = .ok (.int (max size 1)) := by
  rw [radiusOf, bind_ok (Value.greater_eq (Value.rational?_int size) (Value.rational?_int 1))]
  rcases lt_or_ge 1 size with above | below
  · rw [decide_eq_true (by exact_mod_cast above), max_eq_left above.le]
    rfl
  · rw [decide_eq_false (by exact_mod_cast not_lt.mpr below), max_eq_right below]
    rfl

theorem exists_redact {pats : List Value}
    (readable : ∀ pat ∈ pats, Succeeds (patternOf? pat)) (code : String) :
    ∃ t, redact code pats = .ok t := by
  induction pats generalizing code with
  | nil => exact ⟨code, rfl⟩
  | cons pat tl ih =>
    obtain ⟨⟨f, hr⟩, readable⟩ := forall_mem_cons.mp readable
    rw [redact, bind_ok hr]
    cases f <;> exact ih readable _

theorem exists_shown (redacted : Bool) {pats : Value} {xs : List Value} (hl : pats.items = .ok xs)
    (readable : ∀ pat ∈ xs, Succeeds (patternOf? pat)) (code : String) :
    ∃ t, shownBy redacted pats code = .ok t ∧ (redacted = false → t = code) := by
  rw [shownBy]
  split_ifs with blacked
  · obtain ⟨t, hd⟩ := exists_redact readable code
    refine ⟨t, (bind_ok hl).trans hd, fun whole => ?_⟩
    rw [whole] at blacked
    cases blacked
  · exact ⟨code, rfl, fun _ => rfl⟩

/-- Without a limit, the snippets have distinct ranges, and each point in the lines of a file lies in
a snippet of it.  Code that is not redacted is the lines of the range, but for the empty snippet of a
point that has no line.  A limit takes the first of these snippets. -/
theorem snippets_cover_points {index candidates files patterns : Value} {items : List Value}
    {sources : String → Option (List String)} {lists : List (List (Value × Value))}
    (found : index.getD "files" (.record []) = .ok files) (indexed : Indexes files sources)
    (read : (candidates.items >>= fun items => items.mapM pointsOf) = .ok lists)
    (legible : ∀ point ∈ lists.flatten, LegiblePoint point) (listed : patterns.items = .ok items)
    (readable : ∀ pattern ∈ items, Succeeds (patternOf? pattern)) (size : Int) (redacted : Bool) :
    ∃ all, snippets index candidates (.int size) (.int 0) redacted patterns = .ok all ∧
      (all.map Snippet.spot).Nodup ∧
      (∀ point ∈ lists.flatten, ∀ file line lines, PointsTo sources point file line lines →
        1 ≤ line → line ≤ lines.length →
          ∃ snippet ∈ all, snippet.file = .text file ∧ snippet.first ≤ line ∧ line ≤ snippet.last) ∧
      (redacted = false → ∀ snippet ∈ all, ∃ point ∈ lists.flatten, ∃ file line lines,
        PointsTo sources point file line lines ∧ snippet.file = .text file ∧
          (0 < line → snippet.code = Str.join "\n" (linesFromTo snippet.first snippet.last lines)) ∧
            (line ≤ 0 → snippet.first = 1 ∧ snippet.last = 1 ∧ snippet.code = "")) ∧
      ∀ limit : Nat, 0 < limit →
        snippets index candidates (.int size) (.int limit) redacted patterns =
          .ok (all.take limit) := by
  obtain ⟨chains, chained, pointed⟩ := bind_eq_ok.mp read
  choose shown blacked plain using exists_shown redacted listed readable
  let scene : Scene := { sources, reach := max size 1, shown }
  have run (limit : Nat) : snippets index candidates (.int size) (.int limit) redacted patterns =
      .ok (cutTo limit (scene.kept lists.flatten)) := by
    rw [snippets, bind_ok found, bind_ok (radiusOf_int size), bind_ok chained]
    exact @addChains_kept _ scene limit [] ⟨indexed, rfl, blacked⟩ rfl chains lists pointed legible
      fun filled => filled.1.not_ge filled.2
  have once : OncePer Snippet.spot _ (scene.kept lists.flatten) := oncePer_firstOfEach
  refine ⟨_, run 0, once.distinct, fun point chain file line lines there low high => ?_,
    fun whole snippet member => ?_, fun limit positive => ?_⟩
  · have spotted := (once.complete _).mpr (List.mem_map_of_mem (f := Snippet.spot)
      (List.mem_filterMap.mpr ⟨point, chain, Scene.snippet?_of_pointsTo there⟩))
    obtain ⟨snippet, member, same⟩ := List.mem_map.mp spotted
    obtain ⟨_, _, path, _, _, _, shape⟩ := Scene.exists_point_of_kept member
    have place : snippet.file = .text path := by rw [shape]; rfl
    have bounds : (scene.view file line lines).first = max (line - max size 1) 1 ∧
        (scene.view file line lines).last = min (line + max size 1) lines.length := by
      rw [Scene.view, lineWindow, if_neg (by omega)]
      exact ⟨rfl, rfl⟩
    simp only [Snippet.spot, Prod.mk.injEq, place] at same
    obtain ⟨rfl, first, last⟩ := same
    exact ⟨snippet, member, place, by omega, by omega⟩
  · obtain ⟨point, chain, file, line, lines, there, rfl⟩ := Scene.exists_point_of_kept member
    refine ⟨point, chain, file, line, lines, there, rfl, fun above => ?_, fun below => ?_⟩
    · rw [Scene.view, lineWindow, if_neg (by omega)]
      exact plain _ whole
    · rw [Scene.view, lineWindow, if_pos below]
      exact ⟨rfl, rfl, plain _ whole⟩
  · rw [run, cutTo, if_neg positive.ne']
    rfl

def oneLine : Value :=
  .record [("a.py", .record [("lines", .ofTexts ["x"])])]

def chainFrom (ln : Int) : Value :=
  .list [.record [("source", .record [("file", .text "a.py"), ("line", .int ln)])]]

/-- A line before the first leaves a snippet of the first line, without its code. -/
theorem snippet_without_code : ∃ snippet,
    snippets (.record [("files", oneLine)]) (chainFrom (-1)) (.int 1) (.int 0) false (.list []) =
      .ok [snippet] ∧ snippet.code ≠ Str.join "\n" (linesFromTo snippet.first snippet.last ["x"]) :=
  ⟨⟨.text "a.py", 1, 1, ""⟩, by cbv, by decide⟩

theorem snippets_cover_points_of_oneLine : ∃ all,
    snippets (.record [("files", oneLine)]) (chainFrom 1) (.int 1) (.int 0) false (.list []) =
      .ok all ∧ ∃ snippet ∈ all, snippet.file = .text "a.py" ∧ snippet.first ≤ 1 ∧ 1 ≤ snippet.last := by
  have indexed : Indexes oneLine fun path => if path = "a.py" then some ["x"] else none := by
    intro path
    by_cases same : path = "a.py"
    · subst same
      exact ⟨_, rfl, rfl, fun lines known => by cases known; rfl⟩
    · refine ⟨.null, ?_, by simp [same, Value.truthy], by simp [same]⟩
      rw [oneLine, Value.entry, bind_ok (show (Value.text path).asKey = .ok (.text path) from rfl)]
      simp [Value.field?, Ne.symm same, pure, Except.pure]
  have legible : ∀ point ∈ [((.text "a.py", .int 1) : Value × Value), (.null, .null)],
      LegiblePoint point := by
    intro point member
    rcases List.mem_pair.mp member with rfl | rfl
    · exact ⟨fun _ => ⟨_, rfl⟩, fun _ => ⟨1, rfl⟩⟩
    · exact ⟨fun given => absurd given Bool.false_ne_true, fun given => absurd given Bool.false_ne_true⟩
  obtain ⟨all, done, _, cover, _⟩ := @snippets_cover_points (.record [("files", oneLine)]) (chainFrom 1)
    oneLine (.list []) [] _ [[(.text "a.py", .int 1), (.null, .null)]] rfl indexed (by cbv) legible rfl
    (by simp) 1 false
  exact ⟨all, done, cover _ (.head _) "a.py" 1 ["x"] ⟨rfl, by decide, rfl, rfl, rfl⟩ le_rfl le_rfl⟩

end SourceAudit.Project
