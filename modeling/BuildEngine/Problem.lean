import BuildEngine.References
import BuildEngine.Files.Access
import BuildEngine.Supplier
import BuildEngine.Text.Utf8
import BuildEngine.Kind.Table

/-!
Problems of a build description: everything that can be wrong about what a user wrote or a kind
declares, from names that nobody knows to values that mean nothing.
-/

namespace BuildEngine

open BuildEngine.Text

/-- A problem of a build description or of the declarations that it uses. -/
inductive Problem where
  -- Declarations
  | reservedAttribute (kind field name : String)
  | duplicateAttribute (kind name first second : String)
  | duplicateText (kind first second : String)
  | textArity (kind method : String)
  | duplicateElement (kind name first second : String)
  | unknownType (kind method : String)
  | elementArity (kind method : String)
  | missingType (kind method parameter : String)
  | noConcreteKind (kind method parameter : String)
  | abstractChild (kind method child : String)
  | inconstructibleChild (kind method child : String)
  -- Binding
  | noSlotAttribute (owner name : String)
  | noAttribute (owner name : String)
  | invalidValue (owner value name reason : String)
  | noElement (owner name : String)
  | noChildCreated (owner name : String)
  | noText (owner : String)
  | inconstructible (kind : String)
  | refidWithAttributes
  | refidWithElements
  -- Names and references
  | reference (error : ReferenceError)
  | unknownElement (tag : String)
  | unknownReference (id : String)
  -- Targets
  | notAProject (tag : String)
  | targetAttribute (name : String)
  | targetName
  | duplicateTarget (name : String)
  | unknownTarget (name project : String)
  | unknownDependency (name project user : String)
  | dependencyCycle (cycle : List String)
  | noSource (project : String)
  -- Tasks and types
  | requiredAttribute (owner name : String)
  | emptyRead (owner text : String)
  | policyConflict
  | valueOrLocation (owner : String)
  | callTarget
  | nothingToDelete
  | nothingToCompare
  | twoSources
  | nothingToCompareWith
  | secondMapper
  | missingSource (path : Path)
  | noLoad (owner name reason : String)
  | noRegistration (owner reason : String)
  | noDirectory
  | noFiles
  | unreadableList (path : Path) (reason : String)
  | mapperType
  | mapperTo (type : String)
  | mapperFrom (type : String)
  | globStars
  | badPattern (pattern reason : String)
  | topLevelTask (message : String)
  -- Files
  | unreadableFile
  /-- A file is no document; the detail is what a message shows below its first line. -/
  | malformedFile (detail : String)
  | malformedText (detail : String)
  | badConfiguration (reason : String)
  /-- A complaint of a declared kind. -/
  | stated (message : String)
  deriving Repr, Inhabited

namespace Problem

/-- What is said about a kind whose objects cannot be made. -/
def inconstructibleText : String :=
  "can not be constructed without arguments or with only the project"

def message : Problem → String
  | reservedAttribute kind field name =>
    s!"{kind}.{field}: {quote name} is a reserved attribute name"
  | duplicateAttribute kind name first second =>
    s!"{kind} declares the attribute {quote name} twice ({quote first} and {quote second})"
  | duplicateText kind first second =>
    s!"{kind} declares more than one text handler ({first}, {second})"
  | textArity kind method => s!"{kind}.{method}() must accept exactly one argument"
  | duplicateElement kind name first second =>
    s!"{kind} declares the nested element {quote name} twice ({first}, {second})"
  | unknownType kind method =>
    s!"unable to evaluate the type annotations of {kind}.{method}(): name 'Unknown' is not defined"
  | elementArity kind method =>
    s!"{kind}.{method}() must accept no argument (creator) or exactly one argument (adder)"
  | missingType kind method parameter =>
    s!"{kind}.{method}() must annotate the type of its {quote parameter} parameter"
  | noConcreteKind kind method parameter =>
    s!"{kind}.{method}() must annotate {quote parameter} with a concrete class, got <hint>"
  | abstractChild kind method child =>
    s!"{kind}.{method}() expects the abstract class {child}"
  | inconstructibleChild kind method child =>
    s!"{kind}.{method}() expects a {child}, which {inconstructibleText}"
  | noSlotAttribute owner name =>
    s!"{owner} doesn't support a slot-listening {quote name} attribute."
  | noAttribute owner name => s!"{owner} doesn't support the {quote name} attribute."
  | invalidValue owner value name reason =>
    s!"{owner}: invalid value {quote value} for the {quote name} attribute ({reason})"
  | noElement owner name => s!"{owner} doesn't support the nested {quote name} element."
  | noChildCreated owner name => s!"{owner} did not create a nested {quote name} element"
  | noText owner => s!"{owner} doesn't support nested text data."
  | inconstructible kind => s!"{kind} {inconstructibleText}"
  | refidWithAttributes => "You must not specify more than one attribute when using refid"
  | refidWithElements => "You must not specify nested elements when using refid"
  | reference error => error.message
  | unknownElement tag => s!"unknown task or type <{tag}>"
  | unknownReference id => s!"reference {quote id} not found"
  | notAProject tag => s!"expected a <project> root element, got <{tag}>"
  | targetAttribute name => s!"<target> doesn't support the {quote name} attribute."
  | targetName => "<target> requires the 'name' attribute"
  | duplicateTarget name => s!"Duplicate target {quote name}"
  | unknownTarget name project =>
    s!"Target {quote name} does not exist in the project {quote project}."
  | unknownDependency name project user =>
    s!"Target {quote name} does not exist in the project {quote project}. " ++
      s!"It is used from target {quote user}."
  | dependencyCycle cycle =>
    s!"encountered a dependency cycle: {ReferenceError.chainText cycle}"
  | noSource project => s!"Project {quote project} was not loaded from a build description"
  | requiredAttribute owner name =>
    s!"{owner} requires the {quote (withoutTrailingUnderscores name)} attribute"
  | emptyRead owner text => s!"{owner}: {text}"
  | policyConflict => "quiet and failonerror cannot both be set to true"
  | valueOrLocation owner => s!"{owner} requires either the 'value' or the 'location' attribute"
  | callTarget => "Attribute target is required."
  | nothingToDelete =>
    "At least one of the file or dir attributes, or a filelist element must be set."
  | nothingToCompare => "At least one srcfile or a nested <filelist> element must be set."
  | twoSources =>
    "Cannot specify both the srcfile attribute and a nested <filelist> element."
  | nothingToCompareWith =>
    "The targetfile attribute or a nested mapper element must be set."
  | secondMapper => "Cannot define more than one mapper"
  | missingSource path => s!"{path.text} not found."
  | noLoad owner name reason => s!"{owner}: unable to load {quote name}: {reason}"
  | noRegistration owner reason => s!"{owner}: {reason}"
  | noDirectory => "No directory specified for filelist."
  | noFiles => "No files specified for filelist."
  | unreadableList path reason =>
    s!"An error occurred while reading from list file {path.text}: {reason}"
  | mapperType => "<mapper> requires the 'type' attribute"
  | mapperTo type => s!"the {type} mapper requires the 'to' attribute"
  | mapperFrom type => s!"the {type} mapper requires the 'from' attribute"
  | globStars => "the glob mapper supports at most one '*' in 'from' and 'to'"
  | badPattern pattern reason => s!"invalid regular expression {quote pattern}: {reason}"
  | topLevelTask message => s!"top-level task failed: {message}"
  | unreadableFile => "unable to read build file"
  | malformedFile detail => s!"malformed build file{detail}"
  | malformedText detail => s!"malformed build description{detail}"
  | badConfiguration reason => s!"invalid configuration: {reason}"
  | stated message => message

end Problem
end BuildEngine
