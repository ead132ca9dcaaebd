import BuildEngine.Kind.Table

/-!
The standard kinds: the bases that all others build on, the data types, the tasks, and the
elements nested in them.
-/

namespace BuildEngine

def logLevels : Enumeration where
  name := "LogLevel"
  members := [("ERROR", .text "error"), ("WARNING", .text "warning"), ("INFO", .text "info"),
    ("VERBOSE", .text "verbose"), ("DEBUG", .text "debug")]

def mapperTypes : Enumeration where
  name := "MapperType"
  members := [("IDENTITY", .text "identity"), ("FLATTEN", .text "flatten"),
    ("GLOB", .text "glob"), ("MERGE", .text "merge"), ("REGEXP", .text "regexp")]

def Enumeration.value? (e : Enumeration) (member : String) : Option Value :=
  (e.members.find? fun entry => entry.1 == member).map fun entry =>
    .member e.name entry.1 entry.2

namespace StandardKinds

/-- An attribute with a description. -/
def described (name : String) (type : ValueType) (help : String) : AttributeDeclaration :=
  { name, hint := .type type, help := some help, hasOptions := true }

/-- An attribute without a description. -/
def plain (name : String) (type : ValueType) : AttributeDeclaration :=
  { name, hint := .type type }

def starting (name : String) (type : ValueType) (initial : Value) : AttributeDeclaration :=
  { name, hint := .type type, initial := some initial, hasOptions := true }

/-- A method that takes children of a kind under an element name. -/
def adder (name : String) (kind : Standard) : Member :=
  .nested { name := some name, parameters := [("child", .known (.type (.kind kind)))] }

/-- The initializer of everything that belongs to a project. -/
def ofProject : Option (List Parameter) := some [{ name := "project" }]

/-- What a path is made of. -/
def pathAttributes : List AttributeDeclaration := [
  described "location_" .path "A single file or directory.",
  described "path" .text "A list of locations separated by `:` or `;`."]

def declaration : Standard → Declaration
  | .object => { name := "object", home := "builtins", bases := [] }
  | .referable => {
      name := "Referable", home := "anvil.core.system.references"
      bases := [Standard.object], members := [("reference_target", .required)] }
  | .container => {
      name := "PropertyContainer", home := "anvil.core.system.property"
      bases := [Standard.object], initializer := some [] }
  | .component => {
      name := "ProjectComponent", home := "anvil.core.system.component"
      bases := [Standard.container], initializer := ofProject
      members := [("logger", .plain), ("describe", .plain)] }
  | .dataType => {
      name := "DataType", home := "anvil.core.system.component"
      bases := [Standard.component, Standard.referable], initializer := ofProject
      members := ["reference_target", "is_reference", "set_refid", "get_ref",
        "too_many_attributes", "no_children_allowed"].map fun name => (name, .plain) }
  | .task => {
      name := "Task", home := "anvil.core.system.task"
      bases := [Standard.component], initializer := ofProject
      members := [("description", .plain), ("name", .plain), ("execute", .required),
        ("perform", .plain)] }
  | .policyTask => {
      name := "FailurePolicyTask", home := "anvil.core.system.task"
      bases := [Standard.task]
      attributes := [starting "quiet" .flag (.flag false),
        starting "failonerror" .flag (.flag false),
        described "errorproperty" .text "A property to set when an error is tolerated."]
      members := [("check_failure_policy", .plain), ("handle_error", .plain)] }
  | .definition => {
      name := "_DefinitionTask", home := "anvil.std.definition_task"
      bases := [Standard.task]
      attributes := [described "name_" .text "The element name to register the class under.",
        described "classname" .text "The class, as `package.module.Class`.",
        described "classpath" (.kind Standard.pathList)
          "Directories to search for the class' module."]
      members := [("_register", .required), ("execute", .plain)] }
  | .pathElement => {
      name := "PathElement", home := "anvil.core.system.paths"
      bases := [Standard.component], attributes := pathAttributes
      members := [("entries", .plain)] }
  | .pathList => {
      name := "PathList", home := "anvil.core.system.paths"
      bases := [Standard.dataType], attributes := pathAttributes, initializer := ofProject
      members := [("add_pathelement", adder "pathelement" .pathElement),
        ("add_path", adder "path" .pathList), ("entries", .plain)] }
  | .fileName => {
      name := "FileName", home := "anvil.std.filelist"
      bases := [Standard.component], attributes := [plain "name_" .text] }
  | .fileList => {
      name := "FileList", home := "anvil.std.filelist"
      bases := [Standard.dataType], initializer := ofProject
      attributes := [described "dir" .path "The directory that the file names are relative to.",
        described "files" .text "File names separated by commas or whitespace.",
        described "listfile" .path "A file with one file name per line."]
      members := [("add_file", adder "file" .fileName), ("get_dir", .plain),
        ("get_files", .plain)] }
  | .mapper => {
      name := "Mapper", home := "anvil.core.system.mapper"
      bases := [Standard.dataType]
      attributes := [described "type_" (.enumeration mapperTypes) "The kind of mapper.",
        described "from_" .text "The pattern that source names are matched against.",
        described "to" .text "The pattern that produces the derived names.",
        starting "casesensitive" .flag (.flag true)]
      members := [("get_implementation", .plain), ("map", .plain)] }
  | .param => {
      name := "Param", home := "anvil.std.call_task"
      bases := [Standard.component], attributes := [plain "name_" .text, plain "value" .text] }
  | .referenceForward => {
      name := "ReferenceForward", home := "anvil.std.call_task"
      bases := [Standard.component]
      attributes := [plain "refid" .text, plain "torefid" .text] }
  | .call => {
      name := "CallTask", home := "anvil.std.call_task"
      bases := [Standard.task], initializer := ofProject
      attributes := [described "target" .text "The name of the target to call.",
        starting "inheritall" .flag (.flag true), starting "inheritrefs" .flag (.flag false)]
      members := [("description", .plain), ("add_param", adder "param" .param),
        ("add_property", adder "property" .param),
        ("add_reference", adder "reference" .referenceForward), ("execute", .plain)] }
  | .delete => {
      name := "DeleteTask", home := "anvil.std.delete_task"
      bases := [Standard.policyTask], initializer := ofProject
      attributes := [described "file" .path "The file to delete.",
        described "dir" .path "The directory to delete, with all of its contents.",
        starting "includeemptydirs" .flag (.flag false),
        starting "verbose" .flag (.flag false)]
      members := [("description", .plain), ("add_filelist", adder "filelist" .fileList),
        ("execute", .plain)] }
  | .echo => {
      name := "EchoTask", home := "anvil.std.echo_task"
      bases := [Standard.task]
      attributes := [starting "message" .text (.text ""),
        starting "level" (.enumeration logLevels) (.member "LogLevel" "INFO" (.text "info")),
        described "file" .path "Write the message to this file instead of logging it.",
        starting "append" .flag (.flag false)]
      members := [("description", .plain), ("add_text", .text {}), ("execute", .plain)] }
  | .fail => {
      name := "FailTask", home := "anvil.std.fail_task"
      bases := [Standard.task]
      attributes := [starting "message" .text (.text ""),
        described "if_" .text "Fail only if this property is set.",
        described "unless" .text "Fail only if this property is not set."]
      members := [("description", .plain), ("add_text", .text {}), ("execute", .plain)] }
  | .property => {
      name := "PropertyTask", home := "anvil.std.property_task"
      bases := [Standard.task]
      attributes := [described "name_" .text "The name of the property.",
        described "value" .text "The value of the property.",
        described "location_" .path
          "A path that is stored as the value, as an absolute path.",
        starting "override" .flag (.flag false)]
      members := [("description", .plain), ("execute", .plain)] }
  | .taskdef => {
      name := "TaskdefTask", home := "anvil.std.definition_task"
      bases := [Standard.definition]
      members := [("description", .plain), ("_register", .plain)] }
  | .touch => {
      name := "TouchTask", home := "anvil.std.touch_task"
      bases := [Standard.task]
      attributes := [described "file" .path "The file to touch.",
        described "millis" .int "The modification time in milliseconds since the epoch."]
      members := [("description", .plain), ("execute", .plain)] }
  | .typedef => {
      name := "TypedefTask", home := "anvil.std.definition_task"
      bases := [Standard.definition]
      members := [("description", .plain), ("_register", .plain)] }
  | .upToDate => {
      name := "UpToDateTask", home := "anvil.std.uptodate_task"
      bases := [Standard.task], initializer := ofProject
      attributes := [described "property_" .text "The property to set.",
        { name := "value", hint := .type .text, initial := some (.text "true")
          help := some "The value to set the property to.", hasOptions := true },
        described "srcfile" .path "The source file.",
        described "targetfile" .path "The file that is derived from the sources."]
      members := [("description", .plain), ("add_filelist", adder "filelist" .fileList),
        ("create_mapper", .nested {
          name := some "mapper"
          returns := .known (.type (.kind Standard.mapper))
          creates := some Standard.mapper }),
        ("evaluate", .plain), ("execute", .plain)] }
  | .emptyList => { name := "list", home := "builtins", bases := [Standard.object] }
  | .emptyPath => { name := "Path", home := "pathlib", bases := [Standard.object] }
  | .noughtReal => { name := "float", home := "builtins", bases := [Standard.object] }

/-- The standard kinds, bases before the kinds derived from them. -/
def inOrder : List Standard := [
  .object, .referable, .container, .component, .dataType, .task, .policyTask, .definition,
  .pathElement, .pathList, .fileName, .fileList, .mapper, .param, .referenceForward, .call,
  .delete, .echo, .fail, .property, .taskdef, .touch, .typedef, .upToDate, .emptyList, .emptyPath,
  .noughtReal]

theorem mem_inOrder (s : Standard) : s ∈ inOrder := by
  cases s <;> decide

end StandardKinds

/-- The kinds that every build starts with. -/
def Kinds.standard : Kinds :=
  StandardKinds.inOrder.foldl
    (fun ks s => match ks.add (.standard s) (StandardKinds.declaration s) with
      | .ok more => more
      | .error _ => ks)
    {}

/-- What the type of an object is called: an empty path knows on what system it is. -/
def Kind.objectName (k : Kind) : String :=
  if k.id = .standard .emptyPath then "PosixPath" else k.name

end BuildEngine
