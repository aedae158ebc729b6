import Mathlib
import SourceAudit.Monitor.Hooking
import SourceAudit.Monitor.Network
import SourceAudit.Proofs.LogEntries
import SourceAudit.Proofs.PatternRuns

/-!
# Connections read back from a log

A call of a socket hook writes an alert with the name of the function and the address in quotes.
-/

open List

namespace SourceAudit.Monitor

open SourceAudit.Pattern

/-! ## The pattern of alerts -/

def blankItems : List SetItem := [.category .space false false]

def quoteItems : List SetItem := [.char '\'', .char '"']

def functionNode : Node :=
  .choice (.word "connec".toList (.char 't' .exact))
    (.choice (.word "connect_e".toList (.char 'x' .exact))
      (.choice (.word "bin".toList (.char 'd' .exact))
        (.word "create_connectio".toList (.char 'n' .exact))))

def spaced (w : String) (nd : Node) : Node :=
  .seq (.oneOrMore false blankItems) (.word w.toList nd)

def addressNode : Node :=
  .seq (.set false quoteItems .exact)
    (.seq (.group 3 (.oneOrMore true quoteItems)) (.set false quoteItems .exact))

def calledNode : Node :=
  spaced "called" (spaced "with" (spaced "address=" addressNode))

def alertNode : Node :=
  .word ['['] (.seq (.group 1 (.oneOrMore true [.char ']'])) (.word [']']
    (spaced "[ALERT]" (spaced "NETWORK:" (spaced "socket."
      (.seq (.group 2 functionNode) calledNode))))))

theorem networkPattern_node : networkPattern.node = alertNode := by
  decide +kernel

def pairNode : Node :=
  .word ['('] (.seq (.group 1 (.oneOrMore true [.char ','])) (.word [','] (.seq
    (.repetition (.set false blankItems .exact) 0 none .greedy)
      (.seq (.group 2 (.oneOrMore false [.category .digit false false])) (.char ')' .exact)))))

theorem pairPattern_node : pairPattern.node = pairNode := by
  decide +kernel

/-! ## Ways through the pattern -/

variable {pl after : Place} {whole tl : List Char}

theorem leads_spaced {w : String} {nd : Node} (ahead : pl.rest = ' ' :: (w.toList ++ tl))
    (solid : Refused (Node.passes false blankItems) (w.toList ++ tl) = true)
    (leads : nd.Leads (pl.behind (' ' :: w.toList) tl) after) : (spaced w nd).Leads pl after := by
  have blank : (Node.oneOrMore false blankItems).Leads pl (pl.behind [' '] (w.toList ++ tl)) :=
    Node.leads_oneOrMore ahead (by decide) (cons_ne_nil _ _) solid
  apply blank.seq
  apply Node.leads_word rfl
  rw [Place.behind_behind]
  exact leads

theorem run_calledNode_underscore {next : Continuation} (ahead : pl.rest.head? = some '_') :
    calledNode.run next pl = none := by
  have refused : Refused (Node.passes false blankItems) pl.rest = true := by
    rw [Refused, ahead]
    decide
  rw [calledNode, spaced, Node.run]
  exact Node.run_oneOrMore_refused refused

def isQuote (c : Char) : Bool :=
  '\'' == c || '"' == c

def Unquoted (t : List Char) : Prop :=
  ∀ c ∈ t, isQuote c = false

instance (t : List Char) : Decidable (Unquoted t) :=
  decidable_of_iff (t.all (fun c => !isQuote c) = true) (by simp [Unquoted])

theorem passes_quoteItems (negated : Bool) (c : Char) :
    Node.passes negated quoteItems c = (isQuote c != negated) := by
  simp [Node.passes, quoteItems, SetItem.holds, Folding.same, Folding.small, isQuote]

theorem all_passes_of_unquoted {t : List Char} (unquoted : Unquoted t) :
    t.all (Node.passes true quoteItems) = true := by
  rw [all_eq_true]
  intro c hm
  rw [passes_quoteItems, unquoted c hm]
  rfl

variable {addr : List Char}

theorem exists_leads_calledNode {quote : Char} (within : pl.Within whole)
    (ahead : pl.rest = " called with address='".toList ++ (addr ++ quote :: tl))
    (unquoted : Unquoted addr) (hne : addr ≠ []) (quotes : isQuote quote = true) :
    ∃ after a last, calledNode.Leads pl after ∧
      after.groups = (3, a, last) :: pl.groups ∧ (whole.drop a).take (last - a) = addr := by
  let opened := pl.behind " called with address='".toList (addr ++ quote :: tl)
  have hi := within.behind ahead
  refine ⟨((opened.behind addr (quote :: tl)).record 3 opened.position
    (opened.position + addr.length)).behind [quote] tl, _, _, ?_, rfl, hi.slice rfl⟩
  apply leads_spaced ahead rfl
  apply leads_spaced rfl rfl
  rw [Place.behind_behind]
  apply leads_spaced rfl rfl
  rw [Place.behind_behind]
  have opens : (Node.set false quoteItems .exact).Leads
      (pl.behind " called with address=".toList ('\'' :: (addr ++ quote :: tl))) opened := by
    have quoted : opened = (pl.behind " called with address=".toList
        ('\'' :: (addr ++ quote :: tl))).behind ['\''] (addr ++ quote :: tl) := by
      rw [Place.behind_behind]
      rfl
    rw [quoted]
    exact Node.leads_set rfl (by decide)
  have refused : Refused (Node.passes true quoteItems) (quote :: tl) = true := by
    simp [Refused, passes_quoteItems, quotes]
  have content : (Node.oneOrMore true quoteItems).Leads opened (opened.behind addr (quote :: tl)) :=
    Node.leads_oneOrMore rfl (all_passes_of_unquoted unquoted) hne refused
  have closing : Node.passes false quoteItems quote = true := by
    rw [passes_quoteItems, quotes]
    rfl
  exact opens.seq ((content.group 3).seq (Node.leads_set rfl closing))

variable {nm : String}

def socketFunctions : List String := ["connect", "connect_ex", "create_connection"]

theorem leads_function (hk : nm ∈ socketFunctions) (ahead : pl.rest = nm.toList ++ ' ' :: tl)
    (leads : calledNode.Leads ((pl.behind nm.toList (' ' :: tl)).record 2 pl.position
      (pl.position + nm.toList.length)) after) :
    (Node.seq (.group 2 functionNode) calledNode).Leads pl after := by
  intro next r hd
  have goes := leads next r hd
  rw [Node.run, Node.run, functionNode, Node.run, Node.run, Node.run,
    Node.run_spelled (show "connect".toList = _ from rfl),
    Node.run_spelled (show "connect_ex".toList = _ from rfl),
    Node.run_spelled (show "bind".toList = _ from rfl),
    Node.run_spelled (show "create_connection".toList = _ from rfl), ahead]
  simp only [socketFunctions, mem_cons, not_mem_nil, or_false] at hk
  rcases hk with rfl | rfl | rfl
  · rw [Text.after?_append]
    exact congrArg (fun out : Option Place => out.orElse _) goes
  · -- The shorter name is read first, and refused by what follows.
    have shorter : Text.after? "connect".toList ("connect_ex".toList ++ ' ' :: tl) =
        some ("_ex".toList ++ ' ' :: tl) := rfl
    have refused : calledNode.run next ((pl.behind "connect".toList
        ("_ex".toList ++ ' ' :: tl)).record 2 pl.position
          (pl.position + "connect".toList.length)) = none :=
      run_calledNode_underscore rfl
    rw [shorter, Text.after?_append]
    refine (congrArg (fun out : Option Place => out.orElse _) refused).trans ?_
    exact congrArg (fun out : Option Place => out.orElse _) goes
  · rw [show Text.after? "connect".toList ("create_connection".toList ++ ' ' :: tl) = none from rfl,
      show Text.after? "connect_ex".toList ("create_connection".toList ++ ' ' :: tl) = none from rfl,
      show Text.after? "bind".toList ("create_connection".toList ++ ' ' :: tl) = none from rfl,
      Text.after?_append]
    exact goes

/-! ## Alerts of connections -/

def alertText (nm : String) (quoted : List Char) : List Char :=
  ' ' :: ("[ALERT] NETWORK: ".toList ++ ("socket.".toList ++ (nm.toList ++
    (" called with address='".toList ++ quoted))))

theorem exists_search?_alert {stamp tail : List Char} {quote : Char}
    (hk : nm ∈ socketFunctions) (stamped : stamp ≠ []) (open_ : ']' ∉ stamp)
    (hne : addr ≠ []) (unquoted : Unquoted addr) (quotes : isQuote quote = true) :
    ∃ f, networkPattern.search?
        ('[' :: (stamp ++ ']' :: alertText nm (addr ++ quote :: tail))) = some f ∧
      f.group 1 = .ofList stamp ∧ f.group 2 = nm ∧ f.group 3 = .ofList addr := by
  generalize line : '[' :: (stamp ++ ']' :: alertText nm (addr ++ quote :: tail)) = whole
  let called := " called with address='".toList ++ (addr ++ quote :: tail)
  let alert := alertText nm (addr ++ quote :: tail)
  -- The places before the three groups.
  let a := (Place.start whole).behind ['['] (stamp ++ ']' :: alert)
  let stampRead := (a.behind stamp (']' :: alert)).record 1 a.position (a.position + stamp.length)
  let b := stampRead.behind "] [ALERT] NETWORK: socket.".toList (nm.toList ++ called)
  let nameRead := (b.behind nm.toList called).record 2 b.position (b.position + nm.toList.length)
  have firstWithin : a.Within whole := (Place.within_start whole).behind line.symm
  have stampWithin : stampRead.Within whole := (firstWithin.behind rfl).record _ _ _
  have secondWithin : b.Within whole := stampWithin.behind rfl
  have nameWithin : nameRead.Within whole := (secondWithin.behind rfl).record _ _ _
  obtain ⟨after, start, stop, calls, grouped, sliced⟩ :=
    exists_leads_calledNode nameWithin rfl unquoted hne quotes
  have leads : networkPattern.node.Leads (Place.start whole) after := by
    rw [networkPattern_node, alertNode]
    apply Node.leads_word (show (Place.start whole).rest = ['['] ++ _ from line.symm)
    have stampPasses : stamp.all (Node.passes true [.char ']']) = true := by
      rw [all_eq_true]
      intro c hm
      have ho : ']' ≠ c := fun hs => open_ (hs ▸ hm)
      simp [Node.passes, SetItem.holds, Folding.same, Folding.small, ho]
    apply ((Node.leads_oneOrMore rfl stampPasses stamped rfl).group 1).seq
    apply Node.leads_word rfl
    apply leads_spaced rfl rfl
    rw [Place.behind_behind]
    apply leads_spaced rfl rfl
    rw [Place.behind_behind]
    apply leads_spaced rfl rfl
    rw [Place.behind_behind]
    exact leads_function hk rfl calls
  obtain ⟨f, searched, groups, hs⟩ := exists_search?_of_leads leads
  rw [grouped] at groups
  refine ⟨f, searched, ?_, ?_, ?_⟩
  · apply Match.group_eq Nat.one_ne_zero
    · rw [Match.span?, groups]
      rfl
    · rw [hs]
      exact firstWithin.slice rfl
  · rw [← String.ofList_toList (s := nm)]
    apply Match.group_eq two_ne_zero
    · rw [Match.span?, groups]
      rfl
    · rw [hs]
      exact secondWithin.slice rfl
  · apply Match.group_eq (Nat.succ_ne_zero 2)
    · rw [Match.span?, groups]
      rfl
    · rw [hs]
      exact sliced

theorem targetOf_of_open (open_ : addr.head? ≠ some '(') :
    targetOf (.ofList addr) = (.ofList addr, .text (.ofList addr)) := by
  have refused : Text.after? ['('] addr = none := by
    cases addr with
    | nil => rfl
    | cons c addr =>
      have ho : '(' ≠ c := fun hs => open_ (by rw [hs]; rfl)
      simp [Text.after?, ho]
  have unmatched : pairPattern.matchStart? addr = none := by
    rw [Pattern.matchStart?, Pattern.matchAt, pairPattern_node, pairNode, Node.run_word]
    simp only [Place.start, refused, Option.map_none]
  rw [targetOf, String.toList_ofList, unmatched]

/-! ## Calls of socket hooks -/

open SourceAudit.Outside (Moment Audit Session)

def Hook.socketFunction? : Hook → Option String
  | .connect => some "connect"
  | .connectStatus => some "connect_ex"
  | .createConnection => some "create_connection"
  | _ => none

def Hook.addressIn (hook : Hook) (args : Arguments) : Value :=
  match hook with
  | .connect | .connectStatus => args.value "address"
  | .createConnection =>
    args.rest.headD ((Value.field? "address" args.restNamed).getD .null)
  | _ => .null

structure SocketCall where
  hook : Hook
  function : String
  hooked : hook.socketFunction? = some function
  given : List Value
  named : List (String × Value)
  arguments : Arguments
  bound : hook.signature.bind (.null :: given) named = .ok arguments
  host : Value
  port : Value
  further : List Value
  addressed : hook.addressIn arguments = .tuple (host :: port :: further)
  hostUnquoted : Unquoted host.plain.toList
  hostOpen : host.plain.toList.head? ≠ some '('
  result : Value
  isThere : String → Bool
  stack : String
  moment : Moment
  clocked : moment.isClocked = true

namespace SocketCall

def entries (call : SocketCall) : List String :=
  (call.hook.invoke call.stack call.isThere call.given call.named (.ok call.result)).messages.map
    (entryAt call.moment)

def target (call : SocketCall) : String :=
  call.host.plain ++ ":" ++ call.port.plain

def entry (call : SocketCall) : String :=
  entryAt call.moment (call.hook.networkMessage call.target call.stack)

def activity (call : SocketCall) : NetworkActivity where
  kind := call.function
  target := call.host.plain ++ ":" ++ call.port.plain
  timestamp := call.moment.milliseconds
  line := Str.trim call.entry
  address := .text (call.host.plain ++ ":" ++ call.port.plain)

def portRead (call : SocketCall) : List Char :=
  call.port.plain.toList.takeWhile fun c => !isQuote c

def reading (call : SocketCall) : NetworkActivity :=
  let target := .ofList (call.host.plain.toList ++ ':' :: call.portRead)
  { call.activity with target, address := .text target }

end SocketCall

theorem mem_socketFunctions {hook : Hook} {function : String}
    (hooked : hook.socketFunction? = some function) : function ∈ socketFunctions := by
  cases hook <;> cases hooked <;> decide

theorem SocketCall.entries_eq (call : SocketCall) : call.entries = [call.entry] := by
  obtain ⟨hook, function, hooked, given, named, args, bound, host, port, further, addressed, _, _,
    r, isThere, stack, m, _⟩ := call
  have prepared : ∃ prepared, hook.prepare stack isThere given named = .ok prepared ∧
      prepared.messages = [hook.networkMessage (host.plain ++ ":" ++ port.plain) stack] := by
    rw [Hook.prepare, bound]
    change ∃ prepared, hook.prepareWith stack isThere args = .ok prepared ∧ _
    cases hook <;> cases hooked
    all_goals
      rw [Hook.addressIn] at addressed
      rw [Hook.prepareWith, addressed]
      exact ⟨_, rfl, rfl⟩
  obtain ⟨prepared, prepares, messages⟩ := prepared
  rw [SocketCall.entries, Hook.invoke, prepares]
  dsimp only
  rw [messages]
  rfl

/-! ## Reading calls back -/

theorem toList_networkEntry {hook : Hook} {function : String}
    (hooked : hook.socketFunction? = some function) (m : Moment) (addr stack : String) :
    (entryAt m (hook.networkMessage addr stack)).toList =
      '[' :: (m.milliseconds.toList ++ ']' ::
        alertText function (addr.toList ++ '\'' :: ((stackMark ++ stack).toList ++ ['\n']))) := by
  have titled : hook.title = "socket." ++ function := by
    cases hook <;> cases hooked <;> simp [Hook.title]
  have message : hook.networkMessage addr stack = "[ALERT] NETWORK: " ++ ("socket." ++ function) ++
      " called with address='" ++ addr ++ "'" ++ (stackMark ++ stack) := by
    rw [← titled, ← String.append_assoc]
    rfl
  rw [toList_entryAt, message, alertText]
  simp only [String.toList_append, append_assoc]
  rfl

theorem exists_quote (t tail : List Char) :
    ∃ quote tl, isQuote quote = true ∧
      t ++ '\'' :: tail = t.takeWhile (fun c => !isQuote c) ++ quote :: tl := by
  induction t with
  | nil => exact ⟨'\'', tail, rfl, rfl⟩
  | cons c t ih =>
    cases quoted : isQuote c with
    | true => exact ⟨c, t ++ '\'' :: tail, quoted, by simp [quoted]⟩
    | false =>
      obtain ⟨quote, tl, quotes, shape⟩ := ih
      exact ⟨quote, tl, quotes, by simp [quoted, shape]⟩

theorem networkActivity?_entry (call : SocketCall) :
    networkActivity? call.entry = some call.reading := by
  let addr := call.host.plain.toList ++ ':' :: call.portRead
  have hne : addr ≠ [] := by
    simp [addr]
  have unquoted : Unquoted addr := by
    intro c hm
    rcases mem_append.mp hm with host | later
    · exact call.hostUnquoted c host
    · rcases mem_cons.mp later with rfl | port
      · rfl
      · simpa using mem_takeWhile_imp port
  have open_ : addr.head? ≠ some '(' := by
    have h1 := call.hostOpen
    cases host : call.host.plain.toList with
    | nil => simp [addr, host]
    | cons c others =>
      rw [host] at h1
      simpa [addr, host] using h1
  have stamped : call.moment.milliseconds.toList ≠ [] := by
    simp [Moment.milliseconds, String.toList_append]
  have unclosed : ']' ∉ call.moment.milliseconds.toList :=
    Moment.notMem_milliseconds call.clocked (by decide)
  obtain ⟨quote, tl, quotes, cut⟩ :=
    exists_quote call.port.plain.toList ((stackMark ++ call.stack).toList ++ ['\n'])
  have shape : call.target.toList ++ '\'' :: ((stackMark ++ call.stack).toList ++ ['\n']) =
      addr ++ quote :: tl := by
    rw [SocketCall.target, String.toList_append, String.toList_append, append_assoc, cut]
    simp [addr, SocketCall.portRead]
  obtain ⟨f, searched, stamp, function, group⟩ :=
    exists_search?_alert (mem_socketFunctions call.hooked) stamped unclosed hne unquoted quotes
  rw [networkActivity?, SocketCall.entry, toList_networkEntry call.hooked, shape, searched,
    Option.map_some, group, targetOf_of_open open_, function, stamp, String.ofList_toList]
  rfl

theorem SocketCall.reading_eq_activity_iff (call : SocketCall) :
    call.reading = call.activity ↔ Unquoted call.port.plain.toList := by
  have unquoted_iff : Unquoted call.port.plain.toList ↔ call.portRead = call.port.plain.toList := by
    rw [SocketCall.portRead, takeWhile_eq_self_iff]
    simp [Unquoted]
  have target : call.target.toList = call.host.plain.toList ++ ':' :: call.port.plain.toList := by
    simp [SocketCall.target, String.toList_append]
  rw [unquoted_iff]
  constructor
  · intro hs
    have targets : String.ofList (call.host.plain.toList ++ ':' :: call.portRead) = call.target :=
      congrArg NetworkActivity.target hs
    have texts := congrArg String.toList targets
    rw [String.toList_ofList, target] at texts
    exact List.cons.inj (append_cancel_left texts) |>.2
  · intro hs
    have hr : String.ofList (call.host.plain.toList ++ ':' :: call.portRead) = call.target := by
      rw [hs, ← target, String.ofList_toList]
    rw [SocketCall.reading, hr]
    rfl

theorem networkActivities_texts (ls : List String) :
    networkActivities (ls.map .text) = .ok (ls.filterMap networkActivity?) := by
  rw [networkActivities, mapM_map]
  change (do
    let f ← ls.mapM fun ln => (pure (networkActivity? ln) : Outcome _)
    pure (f.filterMap id)) = _
  rw [mapM_pure, pure_bind, filterMap_map]
  rfl

theorem perform_analyzeNetwork (calls : List SocketCall) (s : Session) :
    (analyzeNetwork (.list ((calls.flatMap SocketCall.entries).map .text))).perform s =
      (.ok (calls.map SocketCall.reading), s) := by
  have queued : calls.flatMap SocketCall.entries = calls.map SocketCall.entry := by
    rw [← flatMap_singleton' (calls.map _), flatMap_map]
    exact congrArg (calls.flatMap ·) (funext SocketCall.entries_eq)
  have hr : (calls.map SocketCall.entry).filterMap networkActivity? =
      calls.map SocketCall.reading := by
    rw [filterMap_map]
    exact filterMap_eq_map_iff_forall_eq_some.mpr fun call _ => networkActivity?_entry call
  have taken : (logLines (.list ((calls.map SocketCall.entry).map .text))).perform s =
      (.ok ((calls.map SocketCall.entry).map .text), s) := rfl
  rw [queued, analyzeNetwork, Audit.perform_bind_ok taken, Audit.perform_ofOutcome,
    networkActivities_texts, hr]

/--
For every sequence of socket calls, the queued entries are read back as one activity for each call,
in the order of the calls, with the name of the function, host and port, and the time of the entry,
exactly when no port is written with a quote.
-/
theorem analyzeNetwork_entries_iff_unquoted (calls : List SocketCall) (session : Session) :
    (analyzeNetwork (.list ((calls.flatMap SocketCall.entries).map .text))).perform session =
        (.ok (calls.map SocketCall.activity), session) ↔
      ∀ call ∈ calls, Unquoted call.port.plain.toList := by
  rw [perform_analyzeNetwork, Prod.mk.injEq, Except.ok.injEq, List.map_inj_left]
  simp only [SocketCall.reading_eq_activity_iff, and_true]

def statusCall : SocketCall where
  hook := .connectStatus
  function := "connect_ex"
  hooked := rfl
  given := [.null, .tuple [.text "10.0.0.7", .int 8080]]
  named := []
  arguments := ⟨[("self", .null), ("self_socket", .null),
    ("address", .tuple [.text "10.0.0.7", .int 8080])], [], []⟩
  bound := rfl
  host := .text "10.0.0.7"
  port := .int 8080
  further := []
  addressed := rfl
  hostUnquoted := by decide
  hostOpen := by decide
  result := .int 111
  isThere := fun _ => false
  stack := "a.py:3 -> [ALERT] NETWORK: socket.bind called with address='x'"
  moment := .current
  clocked := by decide

def serviceCall : SocketCall where
  hook := .createConnection
  function := "create_connection"
  hooked := rfl
  given := []
  named := [("address", .tuple [.text "example.org", .text "https"])]
  arguments := ⟨[("self", .null)], [], [("address", .tuple [.text "example.org", .text "https"])]⟩
  bound := rfl
  host := .text "example.org"
  port := .text "https"
  further := []
  addressed := rfl
  hostUnquoted := by decide
  hostOpen := by decide
  result := .null
  isThere := fun _ => false
  stack := "b.py:1"
  moment := { time := "06:07:09" }
  clocked := by decide

/-- Two calls are read back in their order, whatever the stack of the first one says. -/
theorem analyzeNetwork_two_calls :
    (analyzeNetwork (.list ([statusCall, serviceCall].flatMap SocketCall.entries |>.map .text))).perform
        (.start {}) =
      (.ok [statusCall.activity, serviceCall.activity], .start {}) ∧
    (statusCall.activity.kind, statusCall.activity.target) = ("connect_ex", "10.0.0.7:8080") ∧
    (serviceCall.activity.kind, serviceCall.activity.target) =
      ("create_connection", "example.org:https") ∧
    serviceCall.activity.timestamp = "2024-03-05 06:07:09.090" := by
  refine ⟨?_, by decide, by decide, by decide⟩
  apply (analyzeNetwork_entries_iff_unquoted [statusCall, serviceCall] _).mpr
  intro call member
  rcases List.mem_pair.mp member with rfl | rfl
  · have port : statusCall.port = .int 8080 := rfl
    rw [port]
    decide
  · have port : serviceCall.port = .text "https" := rfl
    rw [port]
    decide

def bytesCall : SocketCall where
  hook := .createConnection
  function := "create_connection"
  hooked := rfl
  given := [.tuple [.text "localhost", .bytes [0x38, 0x30]]]
  named := []
  arguments := ⟨[("self", .null)], [.tuple [.text "localhost", .bytes [0x38, 0x30]]], []⟩
  bound := rfl
  host := .text "localhost"
  port := .bytes [0x38, 0x30]
  further := []
  addressed := rfl
  hostUnquoted := by decide
  hostOpen := by decide
  result := .null
  isThere := fun _ => false
  stack := "b.py:1"
  moment := .current
  clocked := by decide

/-- The call is read back with half of its port. -/
theorem analyzeNetwork_cuts_quoted_port :
    ∃ activity, (analyzeNetwork (.list (bytesCall.entries.map .text))).perform (.start {}) =
          (.ok [activity], .start {}) ∧
        bytesCall.activity.target = "localhost:b'80'" ∧ activity.target = "localhost:b" := by
  refine ⟨bytesCall.reading, ?_, by decide, by decide⟩
  have read := perform_analyzeNetwork [bytesCall] (.start {})
  rw [List.flatMap_singleton] at read
  exact read

end SourceAudit.Monitor
