import SuiteShift.Rule.Locator

/-!
# Command rules

The rules for the base call of a chain, in table order. `CommandRule.find?` gives the first rule
of a name, `CommandRule.code` the code for an argument list.
-/

namespace SuiteShift
namespace Rule

/-- A rule for the base call of a chain. -/
structure CommandRule where
  name : String
  body : Body (List Value → Code)
  /-- The code has to be awaited. -/
  suspends : Bool
  /-- Import lines that the code needs besides the test library's. -/
  imports : List String := []

/-- Commands that run as a statement of their own before all that is chained on them. -/
def mustRunFirst (name : String) : Bool :=
  ["intercept", "wait", "visit"].contains name

/-- Navigates to an address. -/
def visit (args : List Value) : Code := do
  let url ← required args "visit" 0
  .ok ("page.goto(" ++ url.code ++ ")")

/-- The direction of a history step: `true` for back. -/
def goesBack? : Value → Option Bool
  | .string text =>
    if text == "back" then some true else if text == "forward" then some false else none
  | .number (.finite negative mantissa _) => if mantissa = 0 then none else some negative
  | .number (.infinite negative) => some negative
  | _ => none

/-- A step in the history. -/
def go (args : List Value) : Code := do
  match goesBack? (← required args "go" 0) with
  | some true => .ok "page.goBack()"
  | some false => .ok "page.goForward()"
  | none => .error (.invalidArgument "go" 0 "'back', 'forward' or a non-zero number")

/-- The address or one of its parts. -/
def location : List Value → Code
  | [] => .ok "new URL(page.url())"
  | .string key :: _ => .ok ("new URL(page.url())." ++ key)
  | _ => .error (.invalidArgument "location" 0 "a URL property name")

/-- A number of milliseconds is a timeout; an alias or a list of them waits for the network. -/
def wait (args : List Value) : Code := do
  match ← required args "wait" 0 with
  | .number time => .ok ("page.waitForTimeout(" ++ (Value.number time).code ++ ")")
  | .string text =>
    if (aliasOf? text).isSome then .ok "page.waitForLoadState('networkidle')"
    else .error (.invalidArgument "wait" 0 "milliseconds or an @alias")
  | .raw source =>
    if opensWith '[' source then .ok "page.waitForLoadState('networkidle')"
    else .error (.invalidArgument "wait" 0 "milliseconds or an @alias")
  | _ => .error (.invalidArgument "wait" 0 "milliseconds or an @alias")

/-- ASCII letters in upper case. -/
def upperAscii (s : String) : String :=
  String.ofList (s.toList.map Char.toUpper)

/-- The request method that a string names, in upper case. -/
def httpMethod? : Value → Option String
  | .string text =>
    let method := upperAscii text
    if ["GET", "POST", "PUT", "PATCH", "DELETE", "HEAD", "OPTIONS"].contains method then
      some method
    else none
  | _ => none

/-- The handler of a route, restricted to a request method if one is given. -/
def routeHandler (method : Option String) (response : Option Value) : String :=
  let handler :=
    match response with
    | some value => "route.fulfill(\x7b json: " ++ value.code ++ " \x7d)"
    | none => "route.continue()"
  match method with
  | some name =>
    "route.request().method() === " ++ Literal.quote name ++ " ? " ++ handler ++
      " : route.fallback()"
  | none => handler

/-- A route for an optional method, an address and an optional response. -/
def intercept (args : List Value) : Code := do
  let (method, rest) :=
    match args with
    | first :: second :: rest =>
      match httpMethod? first with
      | some method => (some method, second :: rest)
      | none => (none, args)
    | _ => (none, args)
  let url ← required rest "intercept" 0
  .ok ("page.route(" ++ url.code ++ ", route => " ++ routeHandler method rest[1]? ++ ")")

/-- A request by options, by address, or by method, address and optional body. -/
def request : List Value → Code
  | [] => .error (.missingArgument "request" 0)
  | [only] =>
    match only with
    | .raw source =>
      if opensWith '\x7b' source then
        .ok ("page.request.fetch(" ++ source ++ ".url, " ++ source ++ ")")
      else .ok ("page.request.get(" ++ source ++ ")")
    | url => .ok ("page.request.get(" ++ url.code ++ ")")
  | first :: second :: rest =>
    match httpMethod? first with
    | some method =>
      let data :=
        match rest with
        | body :: _ => ", data: " ++ body.code
        | [] => ""
      .ok ("page.request.fetch(" ++ second.code ++ ", \x7b method: " ++ Literal.quote method ++
        data ++ " \x7d)")
    | none => .ok ("page.request.get(" ++ first.code ++ ")")

/-- Reads a fixture file; a name without a dot is a JSON file. -/
def fixture (args : List Value) : Code := do
  let name ← requiredString args "fixture" 0
  let file := if name.toList.contains '.' then name else name ++ ".json"
  .ok ("JSON.parse(fs.readFileSync(" ++ Literal.quote ("cypress/fixtures/" ++ file) ++
    ", 'utf-8'))")

/-- Device names with width and height in portrait. -/
def viewportPresets : List (String × Nat × Nat) :=
  [("ipad-2", 768, 1024),
   ("ipad-mini", 768, 1024),
   ("iphone-6", 375, 667),
   ("iphone-x", 375, 812),
   ("iphone-xr", 414, 896),
   ("macbook-13", 1280, 800),
   ("macbook-15", 1440, 900),
   ("macbook-16", 1536, 960),
   ("samsung-s10", 360, 760)]

/-- The call that sets the size of the page. -/
def viewportSize (width height : String) : String :=
  "page.setViewportSize(\x7b width: " ++ width ++ ", height: " ++ height ++ " \x7d)"

/-- A size in pixels, or a device name with an optional orientation. -/
def viewport : List Value → Code
  | [] => .error (.missingArgument "viewport" 0)
  | .number width :: .number height :: _ =>
    .ok (viewportSize (Value.number width).code (Value.number height).code)
  | .string preset :: rest =>
    match viewportPresets.lookup preset with
    | some (width, height) =>
      if rest.head? == some (.string "landscape") then
        .ok (viewportSize (toString height) (toString width))
      else .ok (viewportSize (toString width) (toString height))
    | none => .error (.invalidArgument "viewport" 0 "a known device preset")
  | _ => .error (.invalidArgument "viewport" 0 "width and height or a preset")

/-- The cookie of a name. -/
def getCookie (args : List Value) : Code := do
  let name ← required args "getCookie" 0
  .ok ("page.context().cookies().then(cookies => cookies.find(c => c.name === " ++ name.code ++
    "))")

/-- Sets a cookie for the current address. -/
def setCookie (args : List Value) : Code := do
  let name ← required args "setCookie" 0
  let value ← required args "setCookie" 1
  .ok ("page.context().addCookies([\x7b name: " ++ name.code ++ ", value: " ++ value.code ++
    ", url: page.url() \x7d])")

/-- The coordinates of a named scroll position. -/
def scrollPosition? (position : String) : Option (String × String) :=
  [("top", "0", "0"),
   ("topLeft", "0", "0"),
   ("bottom", "0", "document.body.scrollHeight"),
   ("bottomLeft", "0", "document.body.scrollHeight"),
   ("topRight", "document.body.scrollWidth", "0"),
   ("bottomRight", "document.body.scrollWidth", "document.body.scrollHeight"),
   ("left", "0", "window.scrollY"),
   ("right", "document.body.scrollWidth", "window.scrollY")].lookup position

/-- The call that scrolls the page. -/
def scrollCall (x y : String) : String :=
  "page.evaluate(() => window.scrollTo(" ++ x ++ ", " ++ y ++ "))"

/-- Scrolls to a named position or to coordinates. -/
def scrollTo : List Value → Code
  | .string position :: _ =>
    match scrollPosition? position with
    | some (x, y) => .ok (scrollCall x y)
    | none => .error (.invalidArgument "scrollTo" 0 "a named position")
  | x :: y :: _ => .ok (scrollCall x.code y.code)
  | _ => .error (.missingArgument "scrollTo" 0)

/-- Installs a clock, at a time if one is given. -/
def clock : List Value → Code
  | [] => .ok "page.clock.install()"
  | time :: _ => .ok ("page.clock.install(\x7b time: " ++ time.code ++ " \x7d)")

/-- Lets the clock run. -/
def tick (args : List Value) : Code := do
  let time ← required args "tick" 0
  .ok ("page.clock.runFor(" ++ time.code ++ ")")

/-- Takes a screenshot, under a name if one is given. -/
def screenshot : List Value → Code
  | .string name :: _ =>
    .ok ("page.screenshot(\x7b path: " ++ Literal.quote ("screenshots/" ++ name ++ ".png") ++
      " \x7d)")
  | _ => .ok "page.screenshot()"

/-- The table of command rules. -/
def commandRules : List CommandRule :=
  [{ name := "visit", body := .transform visit, suspends := true },
   { name := "reload", body := .template "page.reload()", suspends := true },
   { name := "go", body := .transform go, suspends := true },
   { name := "url", body := .template "page.url()", suspends := false },
   { name := "title", body := .template "page.title()", suspends := true },
   { name := "location", body := .transform location, suspends := false },
   { name := "hash", body := .template "new URL(page.url()).hash", suspends := false },
   { name := "get", body := .transform selectorLocator, suspends := false },
   { name := "contains", body := .transform textLocator, suspends := false },
   { name := "focused", body := .template "page.locator(':focus')", suspends := false },
   { name := "window", body := .template "page.evaluateHandle(() => window)", suspends := true },
   { name := "document"
     body := .template "page.evaluateHandle(() => document)"
     suspends := true },
   { name := "wait", body := .transform wait, suspends := true },
   { name := "intercept", body := .transform intercept, suspends := true },
   { name := "request", body := .transform request, suspends := true },
   { name := "fixture"
     body := .transform fixture
     suspends := false
     imports := ["import fs from 'fs';"] },
   { name := "viewport", body := .transform viewport, suspends := true },
   { name := "clearCookies"
     body := .template "page.context().clearCookies()"
     suspends := true },
   { name := "clearAllCookies"
     body := .template "page.context().clearCookies()"
     suspends := true },
   { name := "getCookies", body := .template "page.context().cookies()", suspends := true },
   { name := "getCookie", body := .transform getCookie, suspends := true },
   { name := "setCookie", body := .transform setCookie, suspends := true },
   { name := "clearLocalStorage"
     body := .template "page.evaluate(() => localStorage.clear())"
     suspends := true },
   { name := "scrollTo", body := .transform scrollTo, suspends := true },
   { name := "clock", body := .transform clock, suspends := true },
   { name := "tick", body := .transform tick, suspends := true },
   { name := "screenshot", body := .transform screenshot, suspends := true },
   { name := "log", body := .template "console.log(\x7bargs\x7d)", suspends := false },
   { name := "pause", body := .template "page.pause()", suspends := true },
   { name := "debug", body := .template "page.pause()", suspends := true }]

namespace CommandRule

/-- The rule of a name. -/
def find? (name : String) : Option CommandRule :=
  commandRules.find? fun rule => rule.name == name

/-- The code for an argument list. -/
def code (rule : CommandRule) (args : List Value) : Code :=
  match rule.body with
  | .template text => .ok (renderTemplate text "" args)
  | .transform apply => apply args

end CommandRule
end Rule
end SuiteShift
