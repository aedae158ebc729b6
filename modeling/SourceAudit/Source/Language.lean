import SourceAudit.Outside.Session

/-!
# Languages

The language of a source file, told by its extension and, for files without a known one, by the
first lines.
-/

namespace SourceAudit.Source

open Outside

inductive Language where
  | python | go | java | javascript | typescript | cpp | c | csharp | ruby | php | unknown
deriving DecidableEq, Repr

namespace Language

def all : List Language :=
  [.python, .go, .java, .javascript, .typescript, .cpp, .c, .csharp, .ruby, .php, .unknown]

def name : Language → String
  | .python => "python"
  | .go => "go"
  | .java => "java"
  | .javascript => "javascript"
  | .typescript => "typescript"
  | .cpp => "cpp"
  | .c => "c"
  | .csharp => "csharp"
  | .ruby => "ruby"
  | .php => "php"
  | .unknown => "unknown"

def title : Language → String
  | .python => "Python"
  | .go => "Go"
  | .java => "Java"
  | .javascript => "JavaScript"
  | .typescript => "TypeScript"
  | .cpp => "C++"
  | .c => "C"
  | .csharp => "C#"
  | .ruby => "Ruby"
  | .php => "PHP"
  | .unknown => "Unknown"

def ofName? (nm : String) : Option Language :=
  all.find? fun lang => lang.name == nm

def isSupported : Language → Bool
  | .python => true
  | .go => true
  | .java => true
  | _ => false

def ofExtension? (extension : String) : Option Language :=
  let table : List (String × Language) :=
    [(".py", .python), (".go", .go), (".java", .java), (".js", .javascript),
      (".ts", .typescript), (".cpp", .cpp), (".c", .c), (".cs", .csharp), (".rb", .ruby),
      (".php", .php)]
  (table.find? fun e => e.1 == extension).map Prod.snd

def ofHead (head : String) : Language :=
  if Str.occurs "package main" head || Str.occurs "import (" head then .go
  else if Str.occurs "package " head && Str.occurs "import " head then .java
  else if Str.occurs "#!/usr/bin/env python" head || Str.occurs "def " head then .python
  else .unknown

end Language

def detect (p : String) : Audit Language := do
  if p.isEmpty then return .unknown
  match Language.ofExtension? (Path.extension (Str.lower p)) with
  | some lang => return lang
  | none =>
    if ← Audit.isFile p then
      match ← Audit.attempt (Audit.readTextSkipping p) with
      | .ok t => return Language.ofHead (String.join ((Str.readLines t).take 5))
      | .error _ => return .unknown
    else return .unknown

def detectValue (p : Value) : Audit Language :=
  if p.truthy then do detect (← Audit.ofOutcome (p.asText "lower"))
  else return .unknown

def supports (lang : Value) : Outcome Bool := do
  let lang ← lang.asKey
  return match lang with
    | .text nm => (Language.ofName? nm).any Language.isSupported
    | _ => false

def titleOf (lang : Value) : Outcome String := do
  let nm ← lang.asText "capitalize"
  return match Language.ofName? nm with
    | some lang => lang.title
    | none => Str.capitalize nm

end SourceAudit.Source
