import LeakScan.Path

/-!
# LeakScan.Language

The languages that are scanned.

* `Language.ofName?` — by name or short name.
* `Language.ofPath?` — by the extension of a file.
* `Language.grammarName` — the name under which the structural matcher knows it.
-/

namespace LeakScan

open Text

inductive Language where
  | javascript
  | typescript
  | python
  | go
  | java
  | swift
  | cpp
  | ruby
  deriving DecidableEq, Repr, Inhabited

namespace Language

def all : List Language :=
  [.javascript, .typescript, .python, .go, .java, .swift, .cpp, .ruby]

def name : Language → String
  | .javascript => "javascript"
  | .typescript => "typescript"
  | .python => "python"
  | .go => "go"
  | .java => "java"
  | .swift => "swift"
  | .cpp => "cpp"
  | .ruby => "ruby"

/-- Short names that are also understood. -/
def aliases : Language → List String
  | .javascript => ["js"]
  | .typescript => ["ts"]
  | .python => ["py"]
  | .go => ["golang"]
  | .java => []
  | .swift => []
  | .cpp => ["c++", "c"]
  | .ruby => ["rb"]

def extensions : Language → List String
  | .javascript => ["js", "jsx", "mjs", "cjs"]
  | .typescript => ["ts", "tsx", "mts", "cts"]
  | .python => ["py", "pyw"]
  | .go => ["go"]
  | .java => ["java"]
  | .swift => ["swift"]
  | .cpp => ["c", "cc", "cpp", "cxx", "h", "hh", "hpp", "hxx"]
  | .ruby => ["rb"]

/-- Reads a name or short name, in any mixture of ASCII cases. -/
def ofName? (s : String) : Option Language :=
  let key := lowerAscii s
  all.find? fun l => l.name == key || l.aliases.contains key

def ofPath? (path : String) : Option Language :=
  match Path.extension? path with
  | none => none
  | some ext => all.find? fun l => l.extensions.contains (lowerAscii ext)

/-- Files of TypeScript that may hold markup. -/
def isTsx (path : String) : Bool :=
  match Path.extension? path with
  | some ext => lowerAscii ext == "tsx"
  | none => false

def grammarName (l : Language) (path : String) : String :=
  if l == .typescript && isTsx path then "tsx" else l.name

def lineComment : Language → String
  | .python => "#"
  | .ruby => "#"
  | _ => "//"

def hasBlockComments : Language → Bool
  | .python => false
  | .ruby => false
  | _ => true

/-- Languages whose scopes can be read with a grammar. -/
def hasGrammar : Language → Bool
  | .javascript => true
  | .typescript => true
  | .python => true
  | .go => true
  | .java => true
  | _ => false

end Language

end LeakScan
