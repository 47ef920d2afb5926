/-
# The URLs of the API

The dashboard (`frontend/src/api.rs`) writes the MAC of a machine percent-encoded into the
path of a request, the terminal dashboard (`src/tui.rs`) writes it as it is, and
`api_routes` of `src/proxy_server.rs` says which handler gets which path, with the `Path(mac)` that
stands in it.  The URL parsers of the clients and the router of the server are a parameter, of
which only what is documented is used (`UrlPath.Stack.Documented`).

`reaches_iff` : which MACs arrive as they were sent; `registered_mac_arrives` : those of
registered machines do, from both programs.
-/
import Wakezilla.Library.UrlPath
import Wakezilla.ShutdownAuth
import Wakezilla.Wol

namespace Wakezilla

open UrlPath

/-! ## The router -/

/-- The methods of the API. -/
inductive Method
  | get
  | post
  | put
  | delete
  deriving DecidableEq, Repr

/-- The handlers of `api_routes`, under their names. -/
inductive ApiHandler
  | listInterfacesHandler
  | scanNetworkHandler
  | showMachinesApi
  | addMachineApi
  | getMachineDetailsApi
  | getAccessHistoryApi
  | updateMachineApi
  | apiTurnOffRemoteMachine
  | apiWakeMachine
  | isMachineOnApi
  | getShutdownSetup
  | verifyShutdownSetup
  | rotateShutdownKey
  | deleteMachineApi
  deriving DecidableEq, Repr

/-- A path of the API; the segment `:mac` is a parameter. -/
def apiPath (segments : List String) : List Pattern :=
  .fixed "api" :: segments.map fun s => if s = ":mac" then .param else .fixed s

/-- `api_routes`, one entry for each method of a path. -/
def apiRoutes : List (Entry Method ApiHandler) :=
  [⟨apiPath ["interfaces"], .get, .listInterfacesHandler⟩,
    ⟨apiPath ["scan"], .get, .scanNetworkHandler⟩,
    ⟨apiPath ["machines"], .get, .showMachinesApi⟩,
    ⟨apiPath ["machines"], .post, .addMachineApi⟩,
    ⟨apiPath ["machines", ":mac"], .get, .getMachineDetailsApi⟩,
    ⟨apiPath ["machines", ":mac", "access-history"], .get, .getAccessHistoryApi⟩,
    ⟨apiPath ["machines", ":mac"], .put, .updateMachineApi⟩,
    ⟨apiPath ["machines", ":mac", "remote-turn-off"], .post, .apiTurnOffRemoteMachine⟩,
    ⟨apiPath ["machines", ":mac", "wake"], .post, .apiWakeMachine⟩,
    ⟨apiPath ["machines", ":mac", "is-on"], .get, .isMachineOnApi⟩,
    ⟨apiPath ["machines", ":mac", "shutdown-setup"], .get, .getShutdownSetup⟩,
    ⟨apiPath ["machines", ":mac", "shutdown-setup", "verify"], .post, .verifyShutdownSetup⟩,
    ⟨apiPath ["machines", ":mac", "shutdown-setup", "rotate"], .post, .rotateShutdownKey⟩,
    ⟨apiPath ["machines", "delete"], .delete, .deleteMachineApi⟩]

/-- What the HTTP clients, `axum` and its extractors do. -/
abbrev HttpStack := Stack Method ApiHandler

/-- A stack as it is documented exists for the table. -/
theorem plain_documented : (Stack.plain : HttpStack).Documented apiRoutes :=
  Stack.plain_documented (by decide)

/-! ## The requests about a machine -/

/-- The bytes that `encode_path_segment` writes as they are. -/
def unreserved (c : Char) : Bool := c.isAlphanum || c ∈ ['-', '.', '_', '~']

/-- `encode_path_segment`. -/
def encodePathSegment (segment : String) : String :=
  String.ofList (encode unreserved (asBytes segment))

/-- `API_BASE`. -/
def apiBase : String := "/api"

/-- `machine_url`. -/
def machineUrl (mac action : String) : String :=
  apiBase ++ "/machines/" ++ encodePathSegment mac ++ action

/-- The requests of `api.rs` with the MAC in the path, under the names of their functions. -/
inductive MachineRequest
  | getDetailsMachine
  | getAccessHistory
  | updateMachine
  | turnOffMachine
  | wakeMachine
  | getMachineStatus
  | getShutdownSetup
  | verifyShutdownSetup
  | rotateShutdownKey
  deriving DecidableEq, Repr

namespace MachineRequest

/-- The method of a request. -/
def method : MachineRequest → Method
  | .getDetailsMachine | .getAccessHistory | .getMachineStatus | .getShutdownSetup => .get
  | .updateMachine => .put
  | .turnOffMachine | .wakeMachine | .verifyShutdownSetup | .rotateShutdownKey => .post

/-- What `machine_url` gets as `action`. -/
def action : MachineRequest → String
  | .getDetailsMachine | .updateMachine => ""
  | .getAccessHistory => "/access-history"
  | .turnOffMachine => "/remote-turn-off"
  | .wakeMachine => "/wake"
  | .getMachineStatus => "/is-on"
  | .getShutdownSetup => "/shutdown-setup"
  | .verifyShutdownSetup => "/shutdown-setup/verify"
  | .rotateShutdownKey => "/shutdown-setup/rotate"

/-- The handler that a request is meant for. -/
def handler : MachineRequest → ApiHandler
  | .getDetailsMachine => .getMachineDetailsApi
  | .getAccessHistory => .getAccessHistoryApi
  | .updateMachine => .updateMachineApi
  | .turnOffMachine => .apiTurnOffRemoteMachine
  | .wakeMachine => .apiWakeMachine
  | .getMachineStatus => .isMachineOnApi
  | .getShutdownSetup => .getShutdownSetup
  | .verifyShutdownSetup => .verifyShutdownSetup
  | .rotateShutdownKey => .rotateShutdownKey

end MachineRequest

/-- The path that the terminal dashboard asks for, at a base URL without a path. -/
def tuiPath (mac action : String) : String := "/api/machines/" ++ mac ++ action

/-! ## Dispatching a request about a machine -/

namespace MachineRequest

/-- The segments after the MAC. -/
def words : MachineRequest → List String
  | .getDetailsMachine | .updateMachine => []
  | .getAccessHistory => ["access-history"]
  | .turnOffMachine => ["remote-turn-off"]
  | .wakeMachine => ["wake"]
  | .getMachineStatus => ["is-on"]
  | .getShutdownSetup => ["shutdown-setup"]
  | .verifyShutdownSetup => ["shutdown-setup", "verify"]
  | .rotateShutdownKey => ["shutdown-setup", "rotate"]

theorem action_of_words (r : MachineRequest) (h : r.words = []) : r.action = "" := by
  revert h
  cases r <;> decide

/-- The whole path of a request, with some segment for the MAC. -/
def segments (r : MachineRequest) (segment : List Char) : List (List Char) :=
  "api".toList :: "machines".toList :: segment :: r.words.map String.toList

theorem toList_pathOf_segments (r : MachineRequest) (segment : List Char) :
    (pathOf (r.segments segment)).toList =
      "/api/machines/".toList ++ segment ++ r.action.toList := by
  rw [pathOf, String.toList_ofList]
  cases r <;> simp [join, segments, words, action, List.intercalate]

theorem plain_segments (r : MachineRequest) {segment : List Char} (h : PlainSegment segment) :
    ∀ s ∈ r.segments segment, PlainSegment s := by
  have hplain : ∀ text : String, (text ≠ "" ∧ (text.toList.all plainChar) = true ∧
      isDot text.toList = false ∧ isDoubleDot text.toList = false) → PlainSegment text.toList :=
    fun text ⟨hne, hchars, hdot, hdouble⟩ =>
      ⟨fun hnil => hne (by simpa using hnil), List.all_eq_true.mp hchars, hdot, hdouble⟩
  have hwords : ∀ w ∈ r.words, PlainSegment w.toList := by
    cases r <;> simp only [words, List.forall_mem_cons, List.not_mem_nil, false_imp_iff,
      implies_true, and_true]
    all_goals
      first
        | exact hplain _ (by decide)
        | exact ⟨hplain _ (by decide), hplain _ (by decide)⟩
  simp only [segments, List.forall_mem_cons, List.forall_mem_map]
  exact ⟨hplain "api" (by decide), hplain "machines" (by decide), h, hwords⟩

/-- The entry of the table that a request is meant for. -/
def entry (r : MachineRequest) : Entry Method ApiHandler :=
  ⟨apiPath ("machines" :: ":mac" :: r.words), r.method, r.handler⟩

/-- A handler has one entry. -/
theorem entry_of_handler (r : MachineRequest) :
    ∀ entry ∈ apiRoutes, entry.handler = r.handler → entry = r.entry := by
  cases r <;> decide

/-- Only the path of the deletions is preferred to that of a request. -/
theorem preferred_entry (r : MachineRequest) :
    ∀ other ∈ apiRoutes, Pattern.preferred other.pattern r.entry.pattern = true →
      other.pattern = apiPath ["machines", "delete"] := by
  cases r <;> decide

/-- It is the best one for the path of the request, unless the segment makes it another path. -/
theorem best_segments (r : MachineRequest) {segment : List Char}
    (hdelete : r.action = "" → segment ≠ "delete".toList) :
    r.entry.Best apiRoutes (r.segments segment) [segment] := by
  refine ⟨?_, ?_, fun other hother hbound => ?_⟩
  · cases r <;> decide
  · cases r <;> simp [entry, apiPath, words, segments, Pattern.bind]
  · by_contra hpreferred
    rw [Bool.not_eq_false] at hpreferred
    rw [r.preferred_entry other hother hpreferred] at hbound
    have hpattern : apiPath ["machines", "delete"] =
        [.fixed "api", .fixed "machines", .fixed "delete"] := by decide
    rw [hpattern, segments, Pattern.bind, if_pos rfl, Pattern.bind, if_pos rfl, Pattern.bind]
      at hbound
    split_ifs at hbound with hsegment
    · cases hwords : r.words with
      | nil => exact hdelete (r.action_of_words hwords) hsegment
      | cons w ws =>
        rw [hwords] at hbound
        cases hbound
    · cases hbound

/-- A segment that leaves its path alone arrives. -/
theorem dispatch_segments {stack : HttpStack} (hstack : stack.Documented apiRoutes)
    (r : MachineRequest) {url : String} {segment : List Char}
    (hurl : url = pathOf (r.segments segment)) (hplain : PlainSegment segment)
    (hdelete : r.action = "" → segment ≠ "delete".toList) {mac : String}
    (hmac : Decodes segment mac) :
    stack.dispatch apiRoutes r.method url = some (r.handler, [mac]) := by
  subst hurl
  exact hstack.dispatch_plain (r.best_segments hdelete) (r.plain_segments hplain)
    (List.cons_ne_nil _ _) (.cons hmac .nil)

end MachineRequest

/-! ## Which MACs arrive -/

theorem unreserved_percent : unreserved '%' = false := by decide

/-- The characters of an encoded segment. -/
theorem plain_of_mem_encode {mac : String} {c : Char} (hc : c ∈ encode unreserved (asBytes mac)) :
    plainChar c = true := by
  rcases mem_encode hc with ⟨hlt, hc⟩ | rfl | hc
  · have hall : ∀ n < 128, unreserved (Char.ofNat n) = true → plainChar (Char.ofNat n) = true := by
      decide +kernel
    exact forall_ascii (P := fun c => unreserved c = true → plainChar c = true) hall hlt hc
  · decide
  · have hall : ("0123456789ABCDEF".toList.all plainChar) = true := by decide
    exact List.all_eq_true.mp hall c hc

theorem machineUrl_eq_pathOf (r : MachineRequest) (mac : String) :
    machineUrl mac r.action = pathOf (r.segments (encode unreserved (asBytes mac))) := by
  apply String.toList_inj.mp
  rw [MachineRequest.toList_pathOf_segments]
  simp only [machineUrl, encodePathSegment, apiBase, String.toList_append, String.toList_ofList]
  rfl

/-- The three texts that make another path of a request. -/
def Misread (r : MachineRequest) (mac : String) : Prop :=
  mac = "." ∨ mac = ".." ∨ (r.action = "" ∧ mac = "delete")

section

variable {stack : HttpStack} (hstack : stack.Documented apiRoutes)
include hstack

theorem dispatch_machineUrl {r : MachineRequest} {mac : String} (hne : mac ≠ "")
    (h : ¬ Misread r mac) :
    stack.dispatch apiRoutes r.method (machineUrl mac r.action) = some (r.handler, [mac]) := by
  simp only [Misread, not_or, not_and] at h
  obtain ⟨hdot, hdouble, hdelete⟩ := h
  have hdecode : decode (encode unreserved (asBytes mac)) = asBytes mac :=
    decode_encode unreserved_percent _
  have hother : ∀ text : String, mac ≠ text → asBytes mac ≠ asBytes text :=
    fun text h heq => h (asBytes_injective heq)
  refine r.dispatch_segments hstack (machineUrl_eq_pathOf r mac) ⟨?_, ?_, ?_, ?_⟩ ?_ hdecode
  · intro hnil
    rw [hnil] at hdecode
    exact hother "" hne hdecode.symm
  · exact fun c hc => plain_of_mem_encode hc
  · refine Bool.eq_false_iff.mpr fun h => hother "." hdot ?_
    rw [← hdecode, decode_of_isDot h]
    decide +kernel
  · refine Bool.eq_false_iff.mpr fun h => hother ".." hdouble ?_
    rw [← hdecode, decode_of_isDoubleDot h]
    decide +kernel
  · intro haction heq
    rw [heq] at hdecode
    refine hother "delete" (hdelete haction) ?_
    rw [← hdecode]
    decide +kernel

/-- A dot segment is not sent, so no handler gets it. -/
theorem not_dispatch_dots {method : Method} {url mac : String} {handler : ApiHandler}
    (hmac : asBytes mac = [46] ∨ asBytes mac = [46, 46]) :
    stack.dispatch apiRoutes method url ≠ some (handler, [mac]) := by
  intro h
  obtain ⟨path, entry, values, -, -, -, -, hdecodes, hdots⟩ := hstack.of_dispatch h
  obtain ⟨segment, rest, hsegment, -, rfl⟩ := List.forall₂_cons_right_iff.mp hdecodes
  have hdecode : decode segment = asBytes mac := hsegment
  obtain ⟨hdot, hdouble⟩ := hdots segment List.mem_cons_self
  rcases hmac with hmac | hmac
  · exact absurd (isDot_of_decode (hdecode.trans hmac)) (by rw [hdot]; exact Bool.false_ne_true)
  · exact absurd (isDoubleDot_of_decode (hdecode.trans hmac))
      (by rw [hdouble]; exact Bool.false_ne_true)

/-- The path of the deletions is not that of a machine with this name. -/
theorem not_dispatch_delete {r : MachineRequest} (haction : r.action = "") :
    stack.dispatch apiRoutes r.method (machineUrl "delete" r.action) ≠
      some (r.handler, ["delete"]) := by
  intro h
  obtain ⟨path, entry, values, hpath, hbest, hmethod, hhandler, -⟩ := hstack.of_dispatch h
  have hplain : PlainSegment "delete".toList :=
    ⟨by decide, List.all_eq_true.mp (by decide), by decide, by decide⟩
  have hsegments := r.plain_segments hplain
  have hcode : encode unreserved (asBytes "delete") = "delete".toList := by decide +kernel
  have hsent := hstack.keepsPlain (r.segments "delete".toList) (List.cons_ne_nil _ _) hsegments
  rw [machineUrl_eq_pathOf, hcode, hsent] at hpath
  obtain rfl := Option.some.inj hpath
  rw [segmentsOf_pathOf fun s hs => (hsegments s hs).slash_not_mem] at hbest
  obtain rfl := r.entry_of_handler entry hbest.mem hhandler
  -- the fixed path is the better one
  have hbetter := hbest.best ⟨apiPath ["machines", "delete"], .delete, .deleteMachineApi⟩
    (by decide)
  revert haction hbetter
  cases r <;> decide

/-- **Which MACs arrive.**  A request of the dashboard about a MAC reaches its handler with that
MAC, whatever characters it has, except for the three texts that make another path of it. -/
theorem reaches_iff (r : MachineRequest) (mac : String) (hne : mac ≠ "") :
    stack.dispatch apiRoutes r.method (machineUrl mac r.action) = some (r.handler, [mac]) ↔
      ¬ Misread r mac := by
  refine ⟨?_, dispatch_machineUrl hstack hne⟩
  rintro h (rfl | rfl | ⟨haction, rfl⟩)
  · exact not_dispatch_dots hstack (Or.inl (by decide +kernel)) h
  · exact not_dispatch_dots hstack (Or.inr (by decide +kernel)) h
  · exact not_dispatch_delete hstack haction h

end

/-- A text that would be two segments and a query if it were not encoded. -/
theorem encoded_slash_reaches :
    (Stack.plain : HttpStack).dispatch apiRoutes .get (machineUrl "a/b?ü" "/is-on") =
      some (.isMachineOnApi, ["a/b?ü"]) := by
  refine (reaches_iff plain_documented .getMachineStatus "a/b?ü" (by decide)).mpr ?_
  rintro (h | h | ⟨-, h⟩) <;> exact absurd h (by decide)

/-! ## Registered MACs -/

theorem mem_of_matchesMac {n : ℕ} {s : List Char} (h : matchesMac n s = true) {c : Char}
    (hc : c ∈ s) : isHexDigit c = true ∨ c = ':' ∨ c = '-' := by
  fun_induction matchesMac n s with
  | case1 a b =>
    simp only [Bool.and_eq_true] at h
    simp only [List.mem_cons, List.not_mem_nil, or_false] at hc
    rcases hc with rfl | rfl
    · exact Or.inl h.1
    · exact Or.inl h.2
  | case2 n a b sep rest ih =>
    simp only [Bool.and_eq_true, Bool.or_eq_true, decide_eq_true_eq] at h
    obtain ⟨⟨⟨ha, hb⟩, hsep⟩, hrest⟩ := h
    simp only [List.mem_cons] at hc
    rcases hc with rfl | rfl | rfl | hc
    · exact Or.inl ha
    · exact Or.inl hb
    · exact Or.inr hsep
    · exact ih hrest hc
  | case3 => cases h

theorem asBytes_eq_flatMap (text : String) :
    asBytes text = text.toList.flatMap String.utf8EncodeChar := by
  have hbytes : text.toUTF8 = (text.toList.flatMap String.utf8EncodeChar).toByteArray := by
    conv => lhs; rw [← String.ofList_toList (s := text)]
    exact String.toByteArray_ofList
  rw [asBytes, hbytes, List.toList_data_toByteArray]

/-- The characters of a registered MAC. -/
theorem plain_of_validateMac {mac : String} (h : validateMac mac = true) {c : Char}
    (hc : c ∈ mac.toList) : plainChar c = true ∧ c ≠ '%' := by
  rcases mem_of_matchesMac h hc with hhex | rfl | rfl
  · have hall : (hexDigits.all fun c => decide (plainChar c = true ∧ c ≠ '%')) = true := by
      decide
    exact of_decide_eq_true (List.all_eq_true.mp hall c (mem_hexDigits hhex))
  · decide
  · decide

/-- **A registered MAC arrives** with the requests of both dashboards. -/
theorem registered_mac_arrives {stack : HttpStack} (hstack : stack.Documented apiRoutes)
    (r : MachineRequest) (mac : String) (h : validateMac mac = true) :
    stack.dispatch apiRoutes r.method (machineUrl mac r.action) = some (r.handler, [mac]) ∧
      stack.dispatch apiRoutes r.method (tuiPath mac r.action) = some (r.handler, [mac]) := by
  have hlength := length_of_validateMac h
  have hplain := fun c => plain_of_validateMac h (c := c)
  have hpercent : '%' ∉ mac.toList := fun hmem => (hplain _ hmem).2 rfl
  refine ⟨dispatch_machineUrl hstack ?_ ?_, ?_⟩
  · rintro rfl
    exact absurd hlength (by decide)
  · rintro (rfl | rfl | ⟨-, rfl⟩) <;> exact absurd hlength (by decide)
  · refine r.dispatch_segments hstack (?_ : _ = pathOf (r.segments mac.toList))
      ⟨?_, fun c hc => (hplain c hc).1, ?_, ?_⟩ ?_ ?_
    · apply String.toList_inj.mp
      rw [MachineRequest.toList_pathOf_segments]
      simp only [tuiPath, String.toList_append]
    · intro hnil
      rw [hnil] at hlength
      cases hlength
    -- the segments that a parser removes are shorter than a MAC
    · refine Bool.eq_false_iff.mpr fun hsegment => ?_
      have := length_le_of_isDot hsegment
      omega
    · refine Bool.eq_false_iff.mpr fun hsegment => ?_
      have := length_le_of_isDoubleDot hsegment
      omega
    · rintro - heq
      rw [heq] at hlength
      exact absurd hlength (by decide)
    · exact (decode_of_not_mem hpercent).trans (asBytes_eq_flatMap mac).symm

/-- A MAC with colons, and the URLs that ask for its machine to wake. -/
theorem wake_arrives :
    (Stack.plain : HttpStack).dispatch apiRoutes .post (machineUrl "AA:bb:CC:00:11:22" "/wake") =
        some (.apiWakeMachine, ["AA:bb:CC:00:11:22"]) ∧
      (Stack.plain : HttpStack).dispatch apiRoutes .post (tuiPath "AA:bb:CC:00:11:22" "/wake") =
        some (.apiWakeMachine, ["AA:bb:CC:00:11:22"]) :=
  registered_mac_arrives plain_documented .wakeMachine "AA:bb:CC:00:11:22" (by decide)

end Wakezilla
