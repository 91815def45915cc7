import WorkspaceCycles.Settings.Reading

namespace WorkspaceCycles

open Validation Settings

namespace Settings

def writeField (n : FieldName) (v : Json) : String × Json :=
  (n.camel, v)

def writeTexts (ss : List String) : Json :=
  .list (ss.map .text)

def writeOptional : Option String → Json
  | none => .null
  | some s => .text s

end Settings

def IgnoreRule.toJson (r : IgnoreRule) : Json :=
  .object
    [writeField Name.pattern (.text r.pattern),
      writeField Name.package (writeOptional r.package),
      writeField Name.reason (writeOptional r.reason)]

def DpdmOptions.toJson (o : DpdmOptions) : Json :=
  .object
    [writeField Name.skipDynamicImports (.bool o.skipDynamicImports),
      writeField Name.skipTypeOnly (.bool o.skipTypeOnly),
      writeField Name.tsconfig (writeOptional o.tsconfig)]

def MadgeOptions.toJson (o : MadgeOptions) : Json :=
  .object
    [writeField Name.tsconfig (writeOptional o.tsconfig),
      writeField Name.fileExtensions (writeTexts o.fileExtensions)]

def NativeOptions.toJson (o : NativeOptions) : Json :=
  .object
    [writeField Name.skipDynamicImports (.bool o.skipDynamicImports),
      writeField Name.skipTypeOnly (.bool o.skipTypeOnly),
      writeField Name.maxCycleLength (.int o.maxCycleLength)]

def CircularSettings.toJson (s : CircularSettings) : Json :=
  .object
    [writeField Name.enabled (.bool s.enabled),
      writeField Name.intraPackage (.bool s.intraPackage),
      writeField Name.interPackage (.bool s.interPackage),
      writeField Name.intraPackageSeverity (.text s.intraPackageSeverity.text),
      writeField Name.interPackageSeverity (.text s.interPackageSeverity.text),
      writeField Name.tools (writeTexts (s.tools.map Tool.name)),
      writeField Name.ignoreCycles (.list (s.ignoreCycles.map IgnoreRule.toJson)),
      writeField Name.ignorePackageCycles (.list (s.ignorePackageCycles.map writeTexts)),
      writeField Name.includePackages (writeTexts s.includePackages),
      writeField Name.excludePackages (writeTexts s.excludePackages),
      writeField Name.dpdm s.dpdm.toJson,
      writeField Name.madge s.madge.toJson,
      writeField Name.native s.native.toJson,
      writeField Name.analyzerTimeout (.float s.analyzerTimeout)]

def Settings.toJson (s : Settings) : Json :=
  .object
    [writeField Name.version (.text s.version),
      writeField Name.circular s.circular.toJson]

end WorkspaceCycles
