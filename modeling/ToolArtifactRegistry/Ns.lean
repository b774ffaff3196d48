import ToolArtifactRegistry.Library.Rdf

/-! Vocabulary constants and named graphs. -/
namespace ToolArtifactRegistry.Ns

def tar : String := "https://w3id.org/tar/ns#"
def dcat : String := "http://www.w3.org/ns/dcat#"
def dct : String := "http://purl.org/dc/terms/"
def prov : String := "http://www.w3.org/ns/prov#"
def schema : String := "https://schema.org/"
def rdf : String := "http://www.w3.org/1999/02/22-rdf-syntax-ns#"
def rdfs : String := "http://www.w3.org/2000/01/rdf-schema#"
def skos : String := "http://www.w3.org/2004/02/skos/core#"
def spdx : String := "http://spdx.org/rdf/terms#"
def xsd : String := "http://www.w3.org/2001/XMLSchema#"
def void : String := "http://rdfs.org/ns/void#"
def foaf : String := "http://xmlns.com/foaf/0.1/"
def codemeta : String := "https://w3id.org/codemeta/terms/"
def adms : String := "http://www.w3.org/ns/adms#"
def euAccessRight : String := "http://publications.europa.eu/resource/authority/access-right/"
def euDatasetStatus : String := "http://publications.europa.eu/resource/authority/dataset-status/"

/-- The records this registry is authoritative for. -/
def gLocal : String := "urn:tar:local"
def gPeerPrefix : String := "urn:tar:peer:"

/-- The shapes, in the graph they have always had. -/
def gShapes : String := "urn:tar:shapes"
def gBundlePrefix : String := "urn:tar:bundle:"
/-- What is recorded of each bundle graph. -/
def gBundles : String := "urn:tar:bundles"
/-- The graph that held every bundle, the seeded types and every adopted term at once. -/
def gLegacyVocab : String := "urn:tar:vocab"

def peerGraph (id : String) : String := gPeerPrefix ++ id

/-- A term of a namespace. -/
def t (ns localName : String) : String := ns ++ localName

def rdfType : String := t rdf "type"

end ToolArtifactRegistry.Ns
